/-
# Requirements

What is read or compiled has to meet requirements, and the failure that a caller sees is that of
the first one that is not met (`FirstViolated`).  An outcome that depends on a list of requirements
(`Depends`) is settled by it: it succeeds exactly where all of them hold, and otherwise there is one
failure.  Steps in sequence depend on their lists joined, and items of a list on theirs one after
the other, so such a list is put together along the code.
-/
import RequestQuery.Failure

namespace RequestQuery

set_option autoImplicit false

/-- A condition, and the failure that a caller sees where it is not met. -/
structure Requirement where
  holds : Prop
  failure : Failure

namespace Requirement

/-- The failure of the first requirement that is not met. -/
inductive FirstViolated : List Requirement → Failure → Prop where
  | here {first : Requirement} {rest : List Requirement} (violated : ¬first.holds) :
      FirstViolated (first :: rest) first.failure
  | later {first : Requirement} {rest : List Requirement} {failure : Failure} (met : first.holds)
      (violated : FirstViolated rest failure) : FirstViolated (first :: rest) failure

namespace FirstViolated

variable {front back : List Requirement} {failure other : Failure}

theorem append_right (violated : FirstViolated front failure) :
    FirstViolated (front ++ back) failure := by
  induction violated with
  | here violated => exact .here violated
  | later met _ ih => exact .later met ih

theorem append_left (met : ∀ requirement ∈ front, requirement.holds)
    (violated : FirstViolated back failure) : FirstViolated (front ++ back) failure := by
  induction front with
  | nil => exact violated
  | cons first rest ih =>
      obtain ⟨firstMet, restMet⟩ := List.forall_mem_cons.1 met
      exact .later firstMet (ih restMet)

theorem exists_violated (violated : FirstViolated front failure) :
    ∃ requirement ∈ front, ¬requirement.holds ∧ requirement.failure = failure := by
  induction violated with
  | @here first _ violated => exact ⟨first, List.mem_cons_self, violated, rfl⟩
  | later _ _ ih =>
      obtain ⟨requirement, member, violated, same⟩ := ih
      exact ⟨requirement, List.mem_cons_of_mem _ member, violated, same⟩

theorem unique (violated : FirstViolated front failure) (also : FirstViolated front other) :
    failure = other := by
  induction violated with
  | here violated =>
      cases also with
      | here _ => rfl
      | later met _ => exact absurd met violated
  | later met _ ih =>
      cases also with
      | here violated => exact absurd met violated
      | later _ also => exact ih also

end FirstViolated

/-- An outcome is a success where requirements are met, and the failure of the first one that is not
where they are not. -/
structure Depends {α : Type} (outcome : Outcome α) (requirements : List Requirement) : Prop where
  met : ∀ a, outcome = .ok a → ∀ requirement ∈ requirements, requirement.holds
  violated : ∀ failure, outcome = .error failure → FirstViolated requirements failure

namespace Depends

variable {α β : Type} {outcome : Outcome α} {requirements front back : List Requirement}

theorem exists_ok_iff (depends : Depends outcome requirements) :
    (∃ a, outcome = .ok a) ↔ ∀ requirement ∈ requirements, requirement.holds := by
  constructor
  · rintro ⟨a, ok⟩
    exact depends.met a ok
  · intro met
    cases outcome with
    | ok a => exact ⟨a, rfl⟩
    | error failure =>
        obtain ⟨requirement, member, notMet, _⟩ := (depends.violated failure rfl).exists_violated
        exact absurd (met requirement member) notMet

theorem eq_error_iff (depends : Depends outcome requirements) {failure : Failure} :
    outcome = .error failure ↔ FirstViolated requirements failure := by
  refine ⟨depends.violated failure, fun violated => ?_⟩
  cases outcome with
  | ok a =>
      obtain ⟨requirement, member, notMet, _⟩ := violated.exists_violated
      exact absurd (depends.met a rfl requirement member) notMet
  | error other => rw [violated.unique (depends.violated other rfl)]

theorem ok {a : α} (met : ∀ requirement ∈ requirements, requirement.holds) :
    Depends (.ok a) requirements :=
  ⟨fun _ _ => met, fun _ same => nomatch same⟩

theorem error {failure : Failure} (violated : FirstViolated requirements failure) :
    Depends (.error failure : Outcome α) requirements :=
  ⟨fun _ same => (nomatch same), fun _ same => Except.error.inj same ▸ violated⟩

theorem nothing (a : α) : Depends (.ok a) [] :=
  ok (List.forall_mem_nil _)

/-- What is met anyway may be asked for first. -/
theorem of_met (met : ∀ requirement ∈ front, requirement.holds) (depends : Depends outcome back) :
    Depends outcome (front ++ back) :=
  ⟨fun a ok => List.forall_mem_append.2 ⟨met, depends.met a ok⟩,
    fun failure failed => (depends.violated failure failed).append_left met⟩

theorem bind {next : α → Outcome β} (first : Depends outcome front)
    (more : ∀ a, outcome = .ok a → Depends (next a) back) :
    Depends (outcome >>= next) (front ++ back) := by
  cases outcome with
  | error failure => exact error (first.violated failure rfl).append_right
  | ok a => exact of_met (first.met a rfl) (more a rfl)

/-- The last step of a chain may have no requirements. -/
theorem map {next : α → β} (depends : Depends outcome requirements) :
    Depends (outcome >>= fun a => pure (next a)) requirements := by
  rw [← List.append_nil requirements]
  exact depends.bind fun _ _ => nothing _

theorem mapM {f : α → Outcome β} {requirements : α → List Requirement} {as : List α}
    (each : ∀ a ∈ as, Depends (f a) (requirements a)) :
    Depends (as.mapM f) (as.flatMap requirements) := by
  induction as with
  | nil => exact nothing _
  | cons a as ih =>
      obtain ⟨first, others⟩ := List.forall_mem_cons.1 each
      rw [List.mapM_cons, List.flatMap_cons]
      exact first.bind fun b _ => (ih others).map

theorem optionMapM {f : α → Outcome β} {requirements : α → List Requirement} {a? : Option α}
    (each : ∀ a ∈ a?, Depends (f a) (requirements a)) :
    Depends (a?.mapM f) (a?.toList.flatMap requirements) := by
  cases a? with
  | none => exact nothing _
  | some a =>
      have depends : Depends (f a >>= fun b => pure (some b)) (requirements a) :=
        (each a rfl).map
      rw [Option.toList_some, List.flatMap_singleton]
      exact depends

end Depends

end Requirement

end RequestQuery
