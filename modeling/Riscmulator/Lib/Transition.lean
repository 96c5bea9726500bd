import Mathlib.Data.List.Infix

/-! Runs of a deterministic transition system under a list of events, and the
induction rules for properties of every state a run reaches. -/

namespace Transition

variable {σ ε : Type*} (step : σ → ε → σ)

def run (s : σ) (events : List ε) : σ := events.foldl step s

@[simp] theorem run_nil (s : σ) : run step s [] = s := rfl

@[simp] theorem run_cons (s : σ) (e : ε) (events : List ε) :
    run step s (e :: events) = run step (step s e) events := rfl

@[simp] theorem run_append (s : σ) (first second : List ε) :
    run step s (first ++ second) = run step (run step s first) second :=
  List.foldl_append

/-- Every step of the run meets a condition on its event and the state before it. -/
def StepsMeet (C : σ → ε → Prop) : σ → List ε → Prop
  | _, [] => True
  | s, e :: events => C s e ∧ StepsMeet C (step s e) events

variable {step}

/-- The states in between are those of the run, so a decidable condition can be evaluated. -/
instance decidableStepsMeet {C : σ → ε → Prop} [∀ s e, Decidable (C s e)] :
    ∀ (s : σ) (events : List ε), Decidable (StepsMeet step C s events)
  | _, [] => isTrue trivial
  | s, e :: events =>
      have := decidableStepsMeet (C := C) (step s e) events
      inferInstanceAs (Decidable (C s e ∧ StepsMeet step C (step s e) events))

theorem stepsMeet_append {C : σ → ε → Prop} (s : σ) (first second : List ε) :
    StepsMeet step C s (first ++ second) ↔
      StepsMeet step C s first ∧ StepsMeet step C (run step s first) second := by
  induction first generalizing s with
  | nil => simp [StepsMeet]
  | cons e first ih => simp [StepsMeet, ih, and_assoc]

theorem stepsMeet_mono {C C' : σ → ε → Prop} (weaken : ∀ s e, C s e → C' s e)
    (s : σ) (events : List ε) (meets : StepsMeet step C s events) :
    StepsMeet step C' s events := by
  induction events generalizing s with
  | nil => trivial
  | cons e events ih => exact ⟨weaken s e meets.1, ih (step s e) meets.2⟩

theorem stepsMeet_and {C C' : σ → ε → Prop} {s : σ} {events : List ε}
    (left : StepsMeet step C s events) (right : StepsMeet step C' s events) :
    StepsMeet step (fun s e => C s e ∧ C' s e) s events := by
  induction events generalizing s with
  | nil => trivial
  | cons e events ih => exact ⟨⟨left.1, right.1⟩, ih left.2 right.2⟩

theorem stepsMeet_of_forall {E : ε → Prop} (s : σ) {events : List ε} (all : ∀ e ∈ events, E e) :
    StepsMeet step (fun _ e => E e) s events := by
  induction events generalizing s with
  | nil => trivial
  | cons e events ih =>
      exact ⟨all e List.mem_cons_self, ih _ fun e' member => all e' (List.mem_cons_of_mem e member)⟩

theorem stepsMeet_iff_split {C : σ → ε → Prop} (s : σ) (events : List ε) :
    StepsMeet step C s events ↔
      ∀ before e after, events = before ++ e :: after → C (run step s before) e := by
  induction events generalizing s with
  | nil => simp [StepsMeet]
  | cons e events ih =>
      rw [StepsMeet, ih]
      constructor
      · intro both before e' after same
        rcases both with ⟨now, later⟩
        cases before with
        | nil =>
            cases same
            exact now
        | cons first before =>
            cases same
            exact later before e' after rfl
      · intro all
        refine ⟨all [] e events rfl, ?_⟩
        intro before e' after same
        exact all (e :: before) e' after (by rw [same, List.cons_append])

/-- The induction rule for invariants: kept by each step that meets the
condition, kept by each run whose steps all do. -/
theorem invariant_run {C : σ → ε → Prop} {I : σ → Prop}
    (keeps : ∀ s e, I s → C s e → I (step s e)) {s : σ} {events : List ε}
    (start : I s) (meets : StepsMeet step C s events) : I (run step s events) := by
  induction events generalizing s with
  | nil => exact start
  | cons e events ih => exact ih (keeps s e start meets.1) meets.2

theorem invariant_run_always {I : σ → Prop} (keeps : ∀ s e, I s → I (step s e)) {s : σ}
    (events : List ε) (start : I s) : I (run step s events) := by
  induction events generalizing s with
  | nil => exact start
  | cons e events ih => exact ih (keeps s e start)

/-- A property holds in the first state of a run and after each of its steps. -/
def Throughout (step : σ → ε → σ) (P : σ → Prop) (s : σ) (events : List ε) : Prop :=
  ∀ before, before <+: events → P (run step s before)

theorem throughout_nil {P : σ → Prop} (s : σ) : Throughout step P s [] ↔ P s := by
  simp [Throughout]

theorem throughout_cons {P : σ → Prop} (s : σ) (e : ε) (events : List ε) :
    Throughout step P s (e :: events) ↔ P s ∧ Throughout step P (step s e) events := by
  constructor
  · intro always
    refine ⟨always [] List.nil_prefix, ?_⟩
    intro before isPrefix
    exact always (e :: before) (List.cons_prefix_cons.mpr ⟨rfl, isPrefix⟩)
  · intro both before isPrefix
    rcases both with ⟨now, later⟩
    cases before with
    | nil => exact now
    | cons e' before =>
        rcases List.cons_prefix_cons.mp isPrefix with ⟨rfl, tailPrefix⟩
        exact later before tailPrefix

/-- An invariant of the steps that meet a condition holds throughout a run whose
steps all do. -/
theorem throughout_of_stepsMeet {C : σ → ε → Prop} {I : σ → Prop}
    (keeps : ∀ s e, I s → C s e → I (step s e)) {s : σ} {events : List ε} (start : I s)
    (meets : StepsMeet step C s events) : Throughout step I s events := by
  intro before isPrefix
  rcases isPrefix with ⟨after, rfl⟩
  exact invariant_run keeps start ((stepsMeet_append s before after).mp meets).1

/-- Under an invariant, a property that holds after a step exactly when the
step meets a condition holds throughout a run exactly when all its steps meet
it. The steps may be restricted to those of a kind `E`. -/
theorem throughout_iff_stepsMeet_of {C E : σ → ε → Prop} {I P : σ → Prop}
    (keeps : ∀ s e, E s e → I s → I (step s e))
    (exact_step : ∀ s e, E s e → I s → P s → (P (step s e) ↔ C s e)) {s : σ} (inv : I s)
    (start : P s) {events : List ε} (kind : StepsMeet step E s events) :
    Throughout step P s events ↔ StepsMeet step C s events := by
  induction events generalizing s with
  | nil => simp [throughout_nil, StepsMeet, start]
  | cons e events ih =>
      rcases kind with ⟨first, rest⟩
      rw [throughout_cons, StepsMeet]
      constructor
      · intro both
        rcases both with ⟨_, later⟩
        have next : P (step s e) := later [] List.nil_prefix
        exact ⟨(exact_step s e first inv start).mp next,
          (ih (keeps s e first inv) next rest).mp later⟩
      · intro both
        rcases both with ⟨now, meets⟩
        have next : P (step s e) := (exact_step s e first inv start).mpr now
        exact ⟨start, (ih (keeps s e first inv) next rest).mpr meets⟩

/-- The same where the kind of a step is that of its event. -/
theorem throughout_iff_stepsMeet {C : σ → ε → Prop} {E : ε → Prop} {I P : σ → Prop}
    (keeps : ∀ s e, E e → I s → I (step s e))
    (exact_step : ∀ s e, E e → I s → P s → (P (step s e) ↔ C s e)) {s : σ} (inv : I s)
    (start : P s) (events : List ε) (kind : ∀ e ∈ events, E e) :
    Throughout step P s events ↔ StepsMeet step C s events :=
  throughout_iff_stepsMeet_of keeps exact_step inv start (stepsMeet_of_forall s kind)

/-! ### Flags that one kind of step raises and another lowers -/

/-- A flag that only some steps lower stays up along a run without them. -/
theorem flag_stays {F : σ → Prop} {lowers : σ → ε → Prop}
    (keeps : ∀ s e, F s → ¬lowers s e → F (step s e)) {s : σ} {events : List ε}
    (up : F s) (quiet : StepsMeet step (fun s e => ¬lowers s e) s events) :
    F (run step s events) :=
  invariant_run keeps up quiet

/-- A flag that is down at the start of a run and up at its end was raised on
the way. -/
theorem exists_raise {F : σ → Prop} {raises : ε → Prop}
    (keeps : ∀ s e, ¬F s → F (step s e) → raises e) {s : σ} {events : List ε}
    (down : ¬F s) (up : F (run step s events)) : ∃ e ∈ events, raises e := by
  induction events generalizing s with
  | nil => exact absurd up down
  | cons e events ih =>
      by_cases next : F (step s e)
      · exact ⟨e, List.mem_cons_self, keeps s e down next⟩
      · rcases ih next up with ⟨e', member, raised⟩
        exact ⟨e', List.mem_cons_of_mem e member, raised⟩

/-- When no step raises a flag and some kind of step lowers it, a flag that is up
at the end of a run saw no step of that kind. -/
theorem stepsMeet_not_of_up {F I : σ → Prop} {B C : σ → ε → Prop}
    (keeps : ∀ s e, I s → C s e → I (step s e))
    (stays : ∀ s e, I s → C s e → ¬F s → ¬F (step s e))
    (lowers : ∀ s e, I s → C s e → B s e → ¬F (step s e)) {s : σ} {events : List ε} (inv : I s)
    (meets : StepsMeet step C s events) (up : F (run step s events)) :
    StepsMeet step (fun s e => ¬B s e) s events := by
  induction events generalizing s with
  | nil => trivial
  | cons e events ih =>
      have next := keeps s e inv meets.1
      refine ⟨fun lowered => ?_, ih next meets.2 up⟩
      have down : I (run step (step s e) events) ∧ ¬F (run step (step s e) events) :=
        invariant_run (I := fun s => I s ∧ ¬F s)
          (fun s e both met => ⟨keeps s e both.1 met, stays s e both.1 met both.2⟩)
          ⟨next, lowers s e inv meets.1 lowered⟩ meets.2
      exact down.2 up

/-! ### Counting the steps of a kind -/

/-- How many steps of the run are of a kind. -/
def stepsCount (step : σ → ε → σ) (C : σ → ε → Prop) [∀ s e, Decidable (C s e)] :
    σ → List ε → Nat
  | _, [] => 0
  | s, e :: events => (if C s e then 1 else 0) + stepsCount step C (step s e) events

/-- A counter of the steps of a kind stays below a bound exactly in the runs with
few enough of them. It need not count right from the bound on. -/
theorem throughout_lt_iff {C : σ → ε → Prop} [∀ s e, Decidable (C s e)] {counter : σ → Nat}
    {bound : Nat}
    (counts : ∀ s e, counter s < bound → counter (step s e) = counter s + if C s e then 1 else 0)
    (s : σ) (events : List ε) :
    Throughout step (fun s => counter s < bound) s events ↔
      counter s + stepsCount step C s events < bound := by
  induction events generalizing s with
  | nil => rw [throughout_nil, stepsCount, Nat.add_zero]
  | cons e events ih =>
      rw [throughout_cons, stepsCount, ih]
      constructor
      · rintro ⟨now, later⟩
        rw [counts s e now] at later
        omega
      · intro few
        have now : counter s < bound := lt_of_le_of_lt (Nat.le_add_right _ _) few
        rw [counts s e now]
        exact ⟨now, by omega⟩

/-! ### Runs that simulate the steps of another system -/

/-- A run whose steps meet a condition leads from one state to the other. -/
def Reach (step : σ → ε → σ) (C : σ → ε → Prop) (s s' : σ) : Prop :=
  ∃ events, StepsMeet step C s events ∧ run step s events = s'

theorem Reach.refl {C : σ → ε → Prop} (s : σ) : Reach step C s s := ⟨[], trivial, rfl⟩

theorem Reach.single {C : σ → ε → Prop} {s : σ} (e : ε) (meets : C s e) :
    Reach step C s (step s e) := ⟨[e], ⟨meets, trivial⟩, rfl⟩

theorem Reach.trans {C : σ → ε → Prop} {first second third : σ}
    (left : Reach step C first second) (right : Reach step C second third) :
    Reach step C first third := by
  rcases left with ⟨before, meets, rfl⟩
  rcases right with ⟨after, meets', rfl⟩
  exact ⟨before ++ after, (stepsMeet_append first before after).mpr ⟨meets, meets'⟩,
    run_append _ _ _ _⟩

theorem Reach.invariant {C : σ → ε → Prop} {I : σ → Prop}
    (keeps : ∀ s e, I s → C s e → I (step s e)) {s s' : σ} (reach : Reach step C s s')
    (start : I s) : I s' := by
  rcases reach with ⟨events, meets, rfl⟩
  exact invariant_run keeps start meets

/-- Where each step of one system is a run of another, so is each run of it. -/
theorem reach_of_run {τ α : Type*} {step' : τ → α → τ} {C : σ → ε → Prop} {R : τ → σ → Prop}
    (simulates : ∀ t a s, R t s → ∃ s', Reach step C s s' ∧ R (step' t a) s') {t : τ} {s : σ}
    (related : R t s) (actions : List α) :
    ∃ s', Reach step C s s' ∧ R (run step' t actions) s' := by
  induction actions generalizing t s with
  | nil => exact ⟨s, .refl s, related⟩
  | cons a actions ih =>
      obtain ⟨middle, first, related⟩ := simulates t a s related
      obtain ⟨last, rest, related⟩ := ih related
      exact ⟨last, first.trans rest, related⟩

/-! ### Two runs under the same events -/

section Congr

variable {step' : σ → ε → σ} {C : σ → ε → Prop} (agree : ∀ s e, C s e → step' s e = step s e)
  {s : σ} {events : List ε} (meets : StepsMeet step' C s events)

include agree meets

/-- Two systems that agree on the steps that meet a condition make the same runs of them. -/
theorem run_congr : run step' s events = run step s events := by
  induction events generalizing s with
  | nil => rfl
  | cons e events ih =>
      rw [run_cons, run_cons, ih meets.2, agree s e meets.1]

theorem stepsMeet_congr {D : σ → ε → Prop} :
    StepsMeet step' D s events ↔ StepsMeet step D s events := by
  induction events generalizing s with
  | nil => rfl
  | cons e events ih =>
      rw [StepsMeet, StepsMeet, ih meets.2, agree s e meets.1]

theorem throughout_congr {P : σ → Prop} :
    Throughout step' P s events ↔ Throughout step P s events := by
  induction events generalizing s with
  | nil => rw [throughout_nil, throughout_nil]
  | cons e events ih =>
      rw [throughout_cons, throughout_cons, ih meets.2, agree s e meets.1]

end Congr

/-- Runs of two systems under the same events stay related, where a step that meets the
condition on the first keeps them so. -/
theorem related_run {τ : Type*} {step' : τ → ε → τ} {C : σ → ε → Prop} {R : σ → τ → Prop}
    (keeps : ∀ s t e, R s t → C s e → R (step s e) (step' t e)) {s : σ} {t : τ} {events : List ε}
    (start : R s t) (meets : StepsMeet step C s events) :
    R (run step s events) (run step' t events) := by
  induction events generalizing s t with
  | nil => exact start
  | cons e events ih => exact ih (keeps s t e start meets.1) meets.2

end Transition
