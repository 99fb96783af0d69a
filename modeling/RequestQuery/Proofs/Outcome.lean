/-
# Outcomes in sequence

A chain of steps succeeds exactly when each of its steps does.  So a success can be read backwards,
step by step, and for a list item by item.
-/
import Mathlib.Data.List.Forall2
import RequestQuery.Failure

namespace RequestQuery

set_option autoImplicit false

namespace Outcome

variable {α β : Type}

theorem bind_eq_ok_iff {first : Outcome α} {next : α → Outcome β} {b : β} :
    (first >>= next) = .ok b ↔ ∃ a, first = .ok a ∧ next a = .ok b := by
  cases first with
  | error failure => simp [bind, Except.bind]
  | ok a => simp [bind, Except.bind]

theorem pure_eq_ok_iff {a b : α} : (pure a : Outcome α) = .ok b ↔ a = b := by
  simp [pure, Except.pure]

/-- A list of items succeeds when every item does on its own. -/
theorem mapM_eq_ok_iff {f : α → Outcome β} {as : List α} {bs : List β} :
    as.mapM f = .ok bs ↔ List.Forall₂ (fun a b => f a = .ok b) as bs := by
  induction as generalizing bs with
  | nil => cases bs <;> simp [pure_eq_ok_iff]
  | cons a as ih =>
      rw [List.mapM_cons, bind_eq_ok_iff, List.forall₂_cons_left_iff]
      constructor
      · rintro ⟨b, first, more⟩
        obtain ⟨rest, others, whole⟩ := bind_eq_ok_iff.1 more
        exact ⟨b, rest, first, ih.1 others, (pure_eq_ok_iff.1 whole).symm⟩
      · rintro ⟨b, rest, first, others, rfl⟩
        exact ⟨b, first, bind_eq_ok_iff.2 ⟨rest, ih.2 others, rfl⟩⟩

theorem exists_of_mem_mapM {f : α → Outcome β} {as : List α} {bs : List β}
    (h : as.mapM f = .ok bs) {b : β} (member : b ∈ bs) : ∃ a ∈ as, f a = .ok b := by
  have each := mapM_eq_ok_iff.1 h
  clear h
  induction each with
  | nil => cases member
  | cons first _ ih =>
      rcases List.mem_cons.1 member with rfl | member
      · exact ⟨_, List.mem_cons_self, first⟩
      · obtain ⟨a, found, image⟩ := ih member
        exact ⟨a, List.mem_cons_of_mem _ found, image⟩

theorem optionMapM_eq_ok_iff {f : α → Outcome β} {a? : Option α} {b? : Option β} :
    a?.mapM f = .ok b? ↔ Option.Rel (fun a b => f a = .ok b) a? b? := by
  cases a? with
  | none =>
      change (pure none : Outcome (Option β)) = .ok b? ↔ _
      cases b? <;> simp [pure_eq_ok_iff]
  | some a =>
      change (some <$> f a) = .ok b? ↔ _
      cases image : f a with
      | error failure => cases b? <;> simp [Functor.map, Except.map, image]
      | ok b => cases b? <;> simp [Functor.map, Except.map, image]

end Outcome

end RequestQuery
