import Riscmulator.Lib.Transition
import Mathlib.Data.List.Count
import Mathlib.Logic.Function.Basic

/-! Partial deterministic steps, and agents that each take such steps of their own while a
system interleaves them. -/

namespace Interleave

open Transition

/-! ### Runs of partial steps -/

section Steps

variable {τ : Type*} (step : τ → Option τ)

def steps : Nat → τ → Option τ
  | 0, t => some t
  | n + 1, t => (step t).bind (steps n)

variable {step}

theorem steps_succ {n : Nat} {t last : τ} (taken : steps step (n + 1) t = some last) :
    ∃ next, step t = some next ∧ steps step n next = some last :=
  Option.bind_eq_some_iff.mp taken

theorem steps_one {t next : τ} (taken : step t = some next) : steps step 1 t = some next := by
  rw [steps, taken]
  rfl

end Steps

/-! ### Agents -/

section Agents

variable {ι τ σ : Type*} [DecidableEq ι] {own : ι → τ → Option τ} {step : σ → ι → σ}
  {R : (ι → τ) → σ → Prop} {G : ι → Prop} {Q : τ → Prop}

/-- Where a step of an agent is a step of its own and no other agent sees it, every
schedule leaves each agent where its own steps lead it, however they are interleaved. -/
theorem run_schedule
    (simulates : ∀ states s i t, G i → R states s → Q (states i) → own i (states i) = some t →
      R (Function.update states i t) (step s i))
    {states finals : ι → τ} {s : σ} (related : R states s) {schedule : List ι}
    (agents : ∀ i ∈ schedule, G i)
    (admitted : ∀ i, ∀ k < schedule.count i, ∀ t, steps (own i) k (states i) = some t → Q t)
    (alone : ∀ i, steps (own i) (schedule.count i) (states i) = some (finals i)) :
    R finals (run step s schedule) := by
  induction schedule generalizing states s with
  | nil =>
      have done : states = finals := by
        funext i
        exact Option.some.inj (alone i)
      rw [← done]
      exact related
  | cons first rest ih =>
      have mine := alone first
      rw [List.count_cons_self] at mine
      obtain ⟨next, now, later⟩ := steps_succ mine
      have stands : Q (states first) :=
        admitted first 0 (by rw [List.count_cons_self]; exact Nat.succ_pos _) _ rfl
      apply ih (simulates states s first next (agents first List.mem_cons_self) related stands now)
      · intro i member
        exact agents i (List.mem_cons_of_mem first member)
      · intro i k before t taken
        by_cases same : i = first
        · rw [same, Function.update_self] at taken
          rw [same] at before
          apply admitted first (k + 1)
          · rw [List.count_cons_self]
            exact Nat.succ_lt_succ before
          · rw [steps, now]
            exact taken
        · rw [Function.update_of_ne same] at taken
          refine admitted i k ?_ t taken
          rw [List.count_cons_of_ne (Ne.symm same)]
          exact before
      · intro i
        by_cases same : i = first
        · rw [same, Function.update_self]
          exact later
        · have theirs := alone i
          rw [List.count_cons_of_ne (Ne.symm same)] at theirs
          rw [Function.update_of_ne same]
          exact theirs

end Agents

end Interleave
