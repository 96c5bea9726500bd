import Mathlib.Data.List.Basic

/-! Attempts made in order, each of which may fail: the first failure ends the run,
with what was done before it left as it is. -/

namespace Attempts

universe u v

variable {ι : Type u} {σ : Type v} (attempt : ι → σ → Bool × σ)

/-- Whether all attempts succeed, and the state after the last one made. -/
def runAll : List ι → σ → Bool × σ
  | [], s => (true, s)
  | i :: rest, s =>
      let out := attempt i s
      if out.1 then runAll rest out.2 else out

@[simp] theorem runAll_nil (s : σ) : runAll attempt [] s = (true, s) := rfl

theorem runAll_cons (i : ι) (rest : List ι) (s : σ) :
    runAll attempt (i :: rest) s =
      if (attempt i s).1 then runAll attempt rest (attempt i s).2 else attempt i s := rfl

theorem runAll_single (i : ι) (s : σ) : runAll attempt [i] s = attempt i s := by
  rw [runAll_cons]
  split
  · next done => rw [runAll_nil, ← done]
  · rfl

theorem runAll_append (first second : List ι) (s : σ) :
    runAll attempt (first ++ second) s =
      if (runAll attempt first s).1 then runAll attempt second (runAll attempt first s).2
      else runAll attempt first s := by
  induction first generalizing s with
  | nil => rfl
  | cons i rest ih =>
      rw [List.cons_append, runAll_cons, runAll_cons]
      split
      · exact ih _
      · rfl

variable {attempt}

theorem runAll_append_done {first second : List ι} {s : σ}
    (done : (runAll attempt first s).1 = true) :
    runAll attempt (first ++ second) s = runAll attempt second (runAll attempt first s).2 := by
  rw [runAll_append, if_pos done]

theorem runAll_append_failed {first second : List ι} {s : σ}
    (failed : (runAll attempt first s).1 = false) :
    runAll attempt (first ++ second) s = runAll attempt first s := by
  rw [runAll_append, if_neg (Bool.eq_false_iff.mp failed)]

variable (attempt)

/-- The run fails at `i`: the attempts before it succeed, and this one does not. -/
structure FailsAt (attempts : List ι) (s : σ) (before : List ι) (i : ι) : Prop where
  split : ∃ after, attempts = before ++ i :: after
  done : (runAll attempt before s).1 = true
  failed : (attempt i (runAll attempt before s).2).1 = false

variable {attempt}

/-- A run that fails at an attempt ends as this attempt does. -/
theorem FailsAt.ends {attempts before : List ι} {s : σ} {i : ι}
    (fails : FailsAt attempt attempts s before i) :
    runAll attempt attempts s = attempt i (runAll attempt before s).2 := by
  rcases fails.split with ⟨after, rfl⟩
  rw [runAll_append_done fails.done, runAll_cons, if_neg (Bool.eq_false_iff.mp fails.failed)]

theorem FailsAt.failed_all {attempts before : List ι} {s : σ} {i : ι}
    (fails : FailsAt attempt attempts s before i) : (runAll attempt attempts s).1 = false := by
  rw [fails.ends]
  exact fails.failed

/-- Every run that fails does so at one of its attempts. -/
theorem exists_failsAt {attempts : List ι} {s : σ}
    (failed : (runAll attempt attempts s).1 = false) :
    ∃ before i, FailsAt attempt attempts s before i := by
  induction attempts generalizing s with
  | nil => cases failed
  | cons i rest ih =>
      rw [runAll_cons] at failed
      split at failed
      · next done =>
          rcases ih failed with ⟨before, j, ⟨after, rfl⟩, earlier, stuck⟩
          refine ⟨i :: before, j, ⟨after, rfl⟩, ?_, ?_⟩
          · rw [runAll_cons, if_pos done]
            exact earlier
          · rw [runAll_cons, if_pos done]
            exact stuck
      · exact ⟨[], i, ⟨rest, rfl⟩, rfl, failed⟩

/-- What every attempt keeps, a run keeps, failed or not. -/
theorem runAll_keeps {P : σ → Prop} {attempts : List ι}
    (keeps : ∀ i ∈ attempts, ∀ s, P s → P (attempt i s).2) {s : σ} (start : P s) :
    P (runAll attempt attempts s).2 := by
  induction attempts generalizing s with
  | nil => exact start
  | cons i rest ih =>
      rw [runAll_cons]
      have after := keeps i List.mem_cons_self s start
      split
      · exact ih (fun j member => keeps j (List.mem_cons_of_mem _ member)) after
      · exact after

end Attempts
