import Mathlib.Data.List.Basic

/-! Searches for the first element of a list that decides. -/

namespace FirstMatch

variable {α β : Type*}

/-- The first element that passes a test stands no later than any other that does. -/
theorem find_first [DecidableEq α] (test : α → Bool) (l : List α) {i : α}
    (member : i ∈ l) (passes : test i = true) :
    ∃ j ∈ l, l.find? test = some j ∧ test j = true ∧ l.idxOf j ≤ l.idxOf i := by
  induction l with
  | nil => cases member
  | cons a l ih =>
      cases first : test a with
      | true => exact ⟨a, List.mem_cons_self, by simp [first], first, by simp⟩
      | false =>
          have other : ∀ k, test k = true → a ≠ k := by
            intro k holds same
            subst same
            rw [first] at holds
            cases holds
          have later : i ∈ l := (List.mem_cons.mp member).resolve_left (other i passes).symm
          obtain ⟨j, inside, found, holds, before⟩ := ih later
          refine ⟨j, List.mem_cons_of_mem a inside, by simp [first, found], holds, ?_⟩
          rw [List.idxOf_cons_ne l (other j holds), List.idxOf_cons_ne l (other i passes)]
          exact Nat.succ_le_succ before

/-- Two searches that agree wherever the first does not decide for `z` come to
the same, if the first does not come to `z`. -/
theorem findSome_agree {f g : α → Option β} {z : β} (agree : ∀ a, f a = g a ∨ f a = some z)
    (l : List α) (other : l.findSome? f ≠ some z) : l.findSome? g = l.findSome? f := by
  induction l with
  | nil => rfl
  | cons a l ih =>
      rw [List.findSome?_cons] at other ⊢
      rw [List.findSome?_cons]
      rcases agree a with same | decided
      · rw [← same]
        cases here : f a with
        | none =>
            rw [here] at other
            exact ih other
        | some b => rfl
      · rw [decided] at other
        exact absurd rfl other

end FirstMatch
