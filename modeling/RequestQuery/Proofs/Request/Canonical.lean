/-
# Requests in their canonical form

Reading a request settles everything that it leaves open: blanks around names, the case of a
direction, defaults, the several spellings of a list or a limit.  What is written from the query is
a request that leaves nothing open, and it is read as the same query (`ofRequest_toRequest`).

The parts are taken in the order of the reader.  For each, whatever it was read from, the value that
is written for it is read as that part again.
-/
import RequestQuery.Proofs.Outcome
import RequestQuery.Proofs.Parameter
import RequestQuery.Proofs.Text.Canonical
import RequestQuery.Request.Query

namespace RequestQuery.Request

set_option autoImplicit false

/-! ## Entries -/

section Entries

variable {α : Type} {directive name : String} {members : Json.Members} {value : Json.Value}
  {mismatch : Json.Value → String} {fallback a : α} {read : Json.Value → Option α}

/-- An entry has its fallback where nothing is given, and otherwise what was read. -/
theorem of_entry (accepted : entry directive members name mismatch fallback read = .ok a) :
    a = fallback ∨ ∃ value ≠ .null, read value = some a := by
  unfold entry at accepted
  split at accepted
  next => exact .inl (Except.ok.inj accepted).symm
  next value found =>
      split at accepted
      next readable =>
        refine .inr ⟨value, ?_, (Except.ok.inj accepted) ▸ readable⟩
        rintro rfl
        unfold given? at found
        split at found
        · cases found
        · next notNull => exact notNull found
      next => cases accepted

theorem given?_of_get? (found : members.get? name = some value) (present : value ≠ .null) :
    given? members name = some value := by
  unfold given?
  rw [found]
  split
  next same => exact absurd (Option.some.inj same) present
  next => rfl

theorem entry_of_given (found : given? members name = some value) (readable : read value = some a) :
    entry directive members name mismatch fallback read = .ok a := by
  rw [entry, found]
  simp only [readable]

theorem nonBlank?_string (s : String) :
    nonBlank? (.string s) = if Text.trim s = "" then none else some (Text.trim s) := rfl

theorem nonBlank?_of_nonBlank? {s : String} (named : nonBlank? value = some s) :
    nonBlank? (.string s) = some s := by
  obtain ⟨text, _, trimmed⟩ := Option.bind_eq_some_iff.1 named
  simp only [Option.ite_none_left_eq_some, Option.some.injEq] at trimmed
  obtain ⟨visible, rfl⟩ := trimmed
  rw [nonBlank?_string, Text.trim_trim, if_neg visible]

theorem nonBlank?_of_relationName {relation : String}
    (accepted : relationName directive members = .ok relation) :
    nonBlank? (.string relation) = some relation := by
  unfold relationName at accepted
  split at accepted
  next => cases accepted
  next value _ =>
      split at accepted
      next named =>
        cases accepted
        exact nonBlank?_of_nonBlank? named
      next => cases accepted

theorem relationName_of_given {relation : String}
    (found : given? members "relationship" = some value)
    (named : nonBlank? value = some relation) :
    relationName directive members = .ok relation := by
  rw [relationName, found]
  simp only [named]

end Entries

/-! ## Lists of directives -/

section Directives

variable {α : Type} {directive listed : String} {read : Json.Value → Outcome α} {items : List α}

theorem exists_of_mem_directives {value : Json.Value}
    (accepted : directives directive listed read value = .ok items) {item : α}
    (member : item ∈ items) : ∃ given, read given = .ok item := by
  unfold directives at accepted
  split at accepted
  · cases accepted
    cases member
  · next values =>
      obtain ⟨given, _, made⟩ := Outcome.exists_of_mem_mapM accepted member
      exact ⟨given, made⟩
  · next members =>
      obtain ⟨only, made, whole⟩ := Outcome.bind_eq_ok_iff.1 accepted
      cases Outcome.pure_eq_ok_iff.1 whole
      exact ⟨_, List.mem_singleton.1 member ▸ made⟩
  · cases accepted

theorem directives_map {write : α → Json.Value} (each : ∀ item ∈ items, read (write item) = .ok item) :
    directives directive listed read (.array (items.map write)) = .ok items := by
  change (items.map write).mapM read = .ok items
  rw [Outcome.mapM_eq_ok_iff, List.forall₂_map_left_iff, List.forall₂_same]
  exact each

end Directives

/-! ## Field lists -/

namespace FieldList

theorem ofJson?_toJson_nonEmpty? (fields : List String) :
    ofJson? (toJson (nonEmpty? fields)) = nonEmpty? fields := by
  cases fields with
  | nil => rfl
  | cons field fields =>
      have texts : (List.map Json.Value.string (field :: fields)).filterMap itemText? =
          field :: fields := by
        rw [List.filterMap_map]
        exact List.filterMap_some
      change nonEmpty? ((List.map Json.Value.string (field :: fields)).filterMap itemText?) = _
      rw [texts]

theorem ofJson?_toJson_ofJson? (value : Json.Value) :
    ofJson? (toJson (ofJson? value)) = ofJson? value := by
  conv_lhs => rw [ofJson?.eq_def value]
  conv_rhs => rw [ofJson?.eq_def value]
  split
  · exact ofJson?_toJson_nonEmpty? _
  · exact ofJson?_toJson_nonEmpty? _
  · rfl

end FieldList

/-! ## Filters and sort keys -/

theorem Filters.ofJson_toJson {value : Json.Value} {filters : Filters}
    (accepted : ofJson value = .ok filters) : ofJson filters.toJson = .ok filters := by
  unfold ofJson at accepted
  split at accepted
  · cases accepted
    rfl
  · next members =>
      cases accepted
      let entries := members.map fun m => (m.1, Parameter.ofJson m.2)
      have bound : ∀ entry ∈ Ordered.ofList entries,
          (entry.1, Parameter.ofJson entry.2.toJson) = entry := by
        intro entry member
        obtain ⟨given, _, rfl⟩ := List.mem_map.1 (Ordered.mem_ofList member)
        exact congrArg _ (Parameter.ofJson_toJson_ofJson given.2)
      change Except.ok (Ordered.ofList (((Ordered.ofList entries).map fun entry =>
        (entry.1, entry.2.toJson)).map fun m => (m.1, Parameter.ofJson m.2))) = _
      rw [List.map_map]
      have same : (Ordered.ofList entries).map
          ((fun m : String × Json.Value => (m.1, Parameter.ofJson m.2)) ∘ fun entry =>
            (entry.1, entry.2.toJson)) = Ordered.ofList entries :=
        (List.map_congr_left bound).trans (List.map_id _)
      rw [same, Ordered.ofList_of_distinct (Ordered.distinct_ofList entries)]
  · cases accepted

theorem Sorting.direction_keyword (field : String) (order : SortOrder) :
    direction field (.string order.keyword) = .ok order := by
  have parsed : SortOrder.parse? order.keyword = some order := by
    cases order <;> decide +kernel
  unfold direction
  simp only [Json.Value.string?, Option.bind_some, parsed]

theorem Sorting.ofJson_toJson {value : Json.Value} {sorting : Sorting}
    (accepted : ofJson value = .ok sorting) : ofJson sorting.toJson = .ok sorting := by
  have distinct : Ordered.ofList sorting = sorting := by
    unfold ofJson at accepted
    split at accepted
    · cases accepted
      rfl
    · obtain ⟨keys, _, whole⟩ := Outcome.bind_eq_ok_iff.1 accepted
      cases Outcome.pure_eq_ok_iff.1 whole
      exact Ordered.ofList_of_distinct (Ordered.distinct_ofList keys)
    · cases accepted
  refine Outcome.bind_eq_ok_iff.2 ⟨sorting, ?_, Outcome.pure_eq_ok_iff.2 distinct⟩
  rw [Outcome.mapM_eq_ok_iff, List.forall₂_map_left_iff, List.forall₂_same]
  intro entry _
  exact Outcome.bind_eq_ok_iff.2 ⟨entry.2, direction_keyword entry.1 entry.2, rfl⟩

/-! ## Loads -/

namespace Load

theorem direction?_string (s : String) :
    direction? (.string s) = some (Text.upper (Text.trim s)) := rfl

theorem direction?_of_direction? {value : Json.Value} {direction : String}
    (given : direction? value = some direction) :
    direction? (.string direction) = some direction := by
  obtain ⟨text, _, rfl⟩ := Option.map_eq_some_iff.1 given
  rw [direction?_string, Text.trim_upper_trim, Text.upper_upper]

theorem limit?_ne_zero {value : Json.Value} {limit : UInt64} (given : limit? value = some limit) :
    limit ≠ 0 := by
  have positive : ∀ found : Option UInt64,
      (found.bind fun limit => if limit = 0 then none else some limit) = some limit →
        limit ≠ 0 := by
    intro found given
    obtain ⟨other, _, kept⟩ := Option.bind_eq_some_iff.1 given
    simp only [Option.ite_none_left_eq_some, Option.some.injEq] at kept
    obtain ⟨positive, rfl⟩ := kept
    exact positive
  unfold limit? at given
  cases value <;> exact positive _ given

theorem limit?_ofUInt64 {limit : UInt64} (positive : limit ≠ 0) :
    limit? (.ofUInt64 limit) = some limit := by
  change ((Json.Number.ofUInt64 limit).toUInt64?.bind fun limit =>
    if limit = 0 then none else some limit) = _
  rw [Json.Number.toUInt64?_ofUInt64, Option.bind_some, if_neg positive]

/-- A load is read when each of its entries is and no load is nested in it. -/
theorem ofMembers_eq_ok_iff {directive : String} {members : Json.Members} {load : Load} :
    ofMembers directive members = .ok load ↔
      relationName directive members = .ok load.relation ∧
        members.get? "load" = none ∧
          entry directive members "key" (wantedValue "a column name") "id" nonBlank? =
              .ok load.key ∧
            entry directive members "direction" (wantedValue "ASC or DESC") "ASC" direction? =
                .ok load.direction ∧
              entry directive members "limit" (wantedValue "a positive integer") 5 limit? =
                .ok load.limit := by
  unfold ofMembers
  simp only [Outcome.bind_eq_ok_iff]
  constructor
  · rintro ⟨relation, named, rest⟩
    split at rest
    · cases rest
    · next plain =>
        simp only [Outcome.bind_eq_ok_iff, Outcome.pure_eq_ok_iff] at rest
        obtain ⟨key, keyed, direction, directed, limit, limited, rfl⟩ := rest
        exact ⟨named, by simpa using plain, keyed, directed, limited⟩
  · rintro ⟨named, plain, keyed, directed, limited⟩
    refine ⟨load.relation, named, ?_⟩
    rw [plain, if_neg (by simp)]
    simp only [Outcome.bind_eq_ok_iff, Outcome.pure_eq_ok_iff]
    exact ⟨load.key, keyed, load.direction, directed, load.limit, limited, rfl⟩

/-- A load is written as an object that is read as this load, whatever the directive is called. -/
theorem ofMembers_toJson {directive : String} {members : Json.Members} {load : Load}
    (accepted : ofMembers directive members = .ok load) :
    ∃ written, load.toJson = .object written ∧
      ∀ directive, ofMembers directive written = .ok load := by
  obtain ⟨named, _, keyed, directed, limited⟩ := ofMembers_eq_ok_iff.1 accepted
  have key : nonBlank? (.string load.key) = some load.key := by
    rcases of_entry keyed with same | ⟨value, _, readable⟩
    · rw [same]
      decide +kernel
    · exact nonBlank?_of_nonBlank? readable
  have direction : direction? (.string load.direction) = some load.direction := by
    rcases of_entry directed with same | ⟨value, _, readable⟩
    · rw [same]
      decide +kernel
    · exact direction?_of_direction? readable
  have positive : load.limit ≠ 0 := by
    rcases of_entry limited with same | ⟨value, _, readable⟩
    · rw [same]
      decide
    · exact limit?_ne_zero readable
  refine ⟨_, rfl, fun other => ofMembers_eq_ok_iff.2 ⟨?_, rfl, ?_, ?_, ?_⟩⟩
  · exact relationName_of_given rfl (nonBlank?_of_relationName named)
  · exact entry_of_given rfl key
  · exact entry_of_given rfl direction
  · exact entry_of_given rfl (limit?_ofUInt64 positive)

theorem ofJson_toJson {value : Json.Value} {load : Load} (accepted : ofJson value = .ok load) :
    ofJson load.toJson = .ok load := by
  unfold ofJson at accepted
  split at accepted
  · obtain ⟨written, same, again⟩ := ofMembers_toJson accepted
    rw [same]
    exact again "load"
  · cases accepted

end Load

/-! ## Existence directives -/

namespace Operator

theorem ofText_eq (s : String) :
    ofText s =
      if Text.sameLetters (Text.trim s) "eq" then .equal
      else if Text.sameLetters (Text.trim s) "gt" then .greater
      else if Text.sameLetters (Text.trim s) "lt" then .less
      else .other (Text.trim s) := rfl

/-- The three known operators are written as their names, and any other text as it was kept. -/
theorem ofText_text_ofText (s : String) : ofText (ofText s).text = ofText s := by
  rw [ofText_eq s]
  split
  · decide +kernel
  split
  · decide +kernel
  split
  · decide +kernel
  next notEqual notGreater notLess =>
    rw [text, ofText_eq, Text.trim_trim, if_neg notEqual, if_neg notGreater, if_neg notLess]

end Operator

namespace Existence

theorem isScalar_ofNumber (n : Json.Number) : (Parameter.ofNumber n).isScalar = true := by
  unfold Parameter.ofNumber
  split <;> rfl

theorem scalar?_eq_some_iff {value : Json.Value} {p : Parameter} :
    scalar? value = some p ↔ p.isScalar = true ∧ Parameter.ofJson value = p := by
  cases value with
  | array | object =>
      constructor
      · exact nofun
      · rintro ⟨scalar, rfl⟩
        cases scalar
  | number n =>
      constructor
      · rintro ⟨⟩
        exact ⟨isScalar_ofNumber n, rfl⟩
      · rintro ⟨_, rfl⟩
        rfl
  | _ =>
      constructor
      · rintro ⟨⟩
        exact ⟨rfl, rfl⟩
      · rintro ⟨_, rfl⟩
        rfl

theorem scalar?_toJson {value : Json.Value} {p : Parameter} (given : scalar? value = some p) :
    scalar? p.toJson = some p := by
  obtain ⟨scalar, rfl⟩ := scalar?_eq_some_iff.1 given
  exact scalar?_eq_some_iff.2 ⟨scalar, Parameter.ofJson_toJson_ofJson value⟩

/-- Only null is written as null. -/
theorem toJson_ne_null {value : Json.Value} (present : value ≠ .null) :
    (Parameter.ofJson value).toJson ≠ .null := by
  intro null
  have kept := Parameter.ofJson_toJson_ofJson value
  rw [null] at kept
  cases value with
  | null => exact present rfl
  | number n =>
      change Parameter.null = Parameter.ofNumber n at kept
      unfold Parameter.ofNumber at kept
      split at kept <;> cases kept
  | _ => cases kept

theorem nestedLoad_eq_ok_iff {members : Json.Members} {load : Option Load} :
    nestedLoad members = .ok load ↔
      (given? members "load" = none ∧ load = none) ∨
        ∃ nested inner, given? members "load" = some (.object nested) ∧
          Load.ofMembers "where_has.load" nested = .ok inner ∧ load = some inner := by
  unfold nestedLoad
  split
  next missing =>
    constructor
    · rintro ⟨⟩
      exact .inl ⟨missing, rfl⟩
    · rintro (⟨_, rfl⟩ | ⟨nested, inner, found, _⟩)
      · rfl
      · rw [missing] at found
        cases found
  next nested found =>
    rw [Outcome.bind_eq_ok_iff]
    simp only [Outcome.pure_eq_ok_iff, found, reduceCtorEq, false_and, Option.some.injEq,
      Json.Value.object.injEq, false_or]
    constructor
    · rintro ⟨inner, made, rfl⟩
      exact ⟨nested, inner, rfl, made, rfl⟩
    · rintro ⟨_, inner, rfl, made, rfl⟩
      exact ⟨inner, made, rfl⟩
  next other notObject found =>
    constructor
    · exact nofun
    · rintro (⟨missing, _⟩ | ⟨nested, inner, same, _⟩)
      · rw [found] at missing
        cases missing
      · rw [found] at same
        exact absurd (Option.some.inj same) (notObject nested)

theorem ofMembers_eq_ok_iff {members : Json.Members} {existence : Existence} :
    ofMembers members = .ok existence ↔
      relationName "where_has" members = .ok existence.relation ∧
        (entry "where_has" members "operator" (wantedValue "eq, gt or lt") .equal fun v =>
            v.string?.map Operator.ofText) = .ok existence.operator ∧
          (entry "where_has" members "value" (wantedKind "a scalar") none fun v =>
              (scalar? v).map some) = .ok existence.value ∧
            negation members = existence.negated ∧ nestedLoad members = .ok existence.load := by
  unfold ofMembers
  simp only [Outcome.bind_eq_ok_iff, Outcome.pure_eq_ok_iff]
  constructor
  · rintro ⟨relation, named, operator, compared, value, bound, load, nested, rfl⟩
    exact ⟨named, compared, bound, rfl, nested⟩
  · rintro ⟨named, compared, bound, negated, nested⟩
    exact ⟨_, named, _, compared, _, bound, _, nested, by rw [negated]⟩

/-- An operator that was read, or is the fallback, is read from its text again. -/
theorem operator_of_text {members : Json.Members} {operator : Operator}
    (compared :
      (entry "where_has" members "operator" (wantedValue "eq, gt or lt") .equal fun v =>
        v.string?.map Operator.ofText) = .ok operator) :
    (Json.Value.string operator.text).string?.map Operator.ofText = some operator := by
  rcases of_entry compared with rfl | ⟨given, _, readable⟩
  · decide +kernel
  · obtain ⟨text, _, rfl⟩ := Option.map_eq_some_iff.1 readable
    exact congrArg some (Operator.ofText_text_ofText text)

/-- A value to compare with that was read is given when it is written, and read again. -/
theorem scalar?_of_entry {members : Json.Members} {value : Option Parameter}
    (bound :
      (entry "where_has" members "value" (wantedKind "a scalar") none fun v =>
        (scalar? v).map some) = .ok value) :
    ∀ p ∈ value, p.toJson ≠ .null ∧ scalar? p.toJson = some p := by
  rintro p rfl
  rcases of_entry bound with same | ⟨given, present, readable⟩
  · cases same
  · obtain ⟨_, scalar, same⟩ := Option.map_eq_some_iff.1 readable
    cases same
    refine ⟨?_, scalar?_toJson scalar⟩
    rw [← (scalar?_eq_some_iff.1 scalar).2]
    exact toJson_ne_null present

/-- A nested load that was read is written as an object, and read again. -/
theorem nestedLoad_toJson {members : Json.Members} {load : Option Load}
    (nested : nestedLoad members = .ok load) :
    ∀ inner ∈ load, ∃ written, inner.toJson = .object written ∧
      Load.ofMembers "where_has.load" written = .ok inner := by
  rintro inner rfl
  rcases nestedLoad_eq_ok_iff.1 nested with ⟨_, none⟩ | ⟨_, _, _, made, same⟩
  · cases none
  · cases same
    obtain ⟨written, same, again⟩ := Load.ofMembers_toJson made
    exact ⟨written, same, again "where_has.load"⟩

/-- An existence directive is written as an object that is read as this directive. -/
theorem ofMembers_toJson {members : Json.Members} {existence : Existence}
    (accepted : ofMembers members = .ok existence) :
    ∃ written, existence.toJson = .object written ∧ ofMembers written = .ok existence := by
  obtain ⟨named, compared, bound, _, nested⟩ := ofMembers_eq_ok_iff.1 accepted
  obtain ⟨relation, operator, value, negated, load⟩ := existence
  -- The value and the nested load are left out of the object where there is none.
  refine ⟨_, rfl, ofMembers_eq_ok_iff.2 ⟨?relation, ?operator, ?value, ?negated, ?load⟩⟩
  case relation => exact relationName_of_given rfl (nonBlank?_of_relationName named)
  case operator => exact entry_of_given rfl (operator_of_text compared)
  case value =>
    cases value with
    | none => cases load <;> rfl
    | some p =>
        obtain ⟨present, scalar⟩ := scalar?_of_entry bound p rfl
        refine entry_of_given (given?_of_get? rfl present) ?_
        rw [scalar]
        rfl
  case negated => cases value <;> cases negated <;> rfl
  case load =>
    refine nestedLoad_eq_ok_iff.2 ?_
    cases load with
    | none =>
        refine .inl ⟨?_, rfl⟩
        cases value <;> rfl
    | some inner =>
        obtain ⟨written, same, made⟩ := nestedLoad_toJson nested inner rfl
        refine .inr ⟨written, inner, given?_of_get? ?_ nofun, made, rfl⟩
        cases value with
        | none => exact congrArg some same
        | some p => exact congrArg some same

theorem ofJson_toJson {value : Json.Value} {existence : Existence}
    (accepted : ofJson value = .ok existence) : ofJson existence.toJson = .ok existence := by
  unfold ofJson at accepted
  split at accepted
  · obtain ⟨written, same, again⟩ := ofMembers_toJson accepted
    rw [same]
    exact again
  · cases accepted

end Existence

/-! ## Requests -/

namespace Query

theorem ofMembers_eq_ok_iff {members : Json.Members} {query : Query} :
    ofMembers members = .ok query ↔
      Filters.ofJson (spelled members ["filters"]) = .ok query.filters ∧
        Load.listOfJson (spelled members ["load"]) = .ok query.loads ∧
          Existence.listOfJson (spelled members ["where_has", "whereHas"]) =
              .ok query.existences ∧
            Sorting.ofJson (spelled members ["sort"]) = .ok query.sorting ∧
              FieldList.ofJson? (spelled members ["select"]) = query.select ∧
                FieldList.ofJson? (spelled members ["group_by", "groupBy"]) = query.groupBy := by
  unfold ofMembers
  simp only [Outcome.bind_eq_ok_iff, Outcome.pure_eq_ok_iff]
  constructor
  · rintro ⟨filters, filtered, loads, loaded, existences, existing, sorting, sorted, rfl⟩
    exact ⟨filtered, loaded, existing, sorted, rfl, rfl⟩
  · rintro ⟨filtered, loaded, existing, sorted, selected, grouped⟩
    exact ⟨_, filtered, _, loaded, _, existing, _, sorted, by rw [selected, grouped]⟩

/-- Reading a request settles it: the request that is written from the query is read as the same
query. -/
theorem ofRequest_toRequest {request : Json.Value} {query : Query}
    (accepted : ofRequest request = .ok query) : ofRequest query.toRequest = .ok query := by
  unfold ofRequest at accepted
  split at accepted
  · cases accepted
    rfl
  · obtain ⟨filtered, loaded, existing, sorted, selected, grouped⟩ :=
      ofMembers_eq_ok_iff.1 accepted
    refine ofMembers_eq_ok_iff.2 ⟨?filters, ?loads, ?existences, ?sorting, ?select, ?groupBy⟩
    case filters => exact Filters.ofJson_toJson filtered
    case loads =>
      refine directives_map fun load member => ?_
      obtain ⟨given, made⟩ := exists_of_mem_directives loaded member
      exact Load.ofJson_toJson made
    case existences =>
      refine directives_map fun existence member => ?_
      obtain ⟨given, made⟩ := exists_of_mem_directives existing member
      exact Existence.ofJson_toJson made
    case sorting => exact Sorting.ofJson_toJson sorted
    case select =>
      rw [← selected]
      exact FieldList.ofJson?_toJson_ofJson? _
    case groupBy =>
      rw [← grouped]
      exact FieldList.ofJson?_toJson_ofJson? _
  · cases accepted

/-- A request that leaves much open is read, and settled. -/
theorem ofRequest_toRequest_loose :
    let request : Json.Value := .object
      [("filters", .object [("balance", .ofUInt64 0xFFFFFFFFFFFFFFFF)]),
       ("load", .object
         [("relationship", .string " posts "), ("direction", .string " deſc\t"),
          ("limit", .string " 3 ")]),
       ("whereHas", .object
         [("relationship", .string "posts"), ("operator", .string " GT "),
          ("value", .ofUInt64 100), ("not", .string "yes"),
          ("load", .object [("relationship", .string "comments")])])]
    ∃ query, ofRequest request = .ok query ∧
      query.loads = [{ relation := "posts", direction := "DESC", limit := 3 }] ∧
        ofRequest query.toRequest = .ok query := by
  intro request
  have loads : (ofRequest request).toOption.map (·.loads) =
      some [{ relation := "posts", direction := "DESC", limit := 3 }] := by decide +kernel
  cases accepted : ofRequest request with
  | error failure =>
      rw [accepted] at loads
      cases loads
  | ok query =>
      rw [accepted] at loads
      exact ⟨query, rfl, Option.some.inj loads, ofRequest_toRequest accepted⟩

end Query

end RequestQuery.Request
