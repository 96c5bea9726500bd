import Mathlib.Data.List.Basic

/-! Computations that record what they touch: a value and the list of what was
touched on the way to it, in order. -/

structure Traced (ι α : Type*) where
  value : α
  trace : List ι

namespace Traced

universe u v

variable {ι : Type u} {α β : Type v}

instance : Monad (Traced ι) where
  pure a := ⟨a, []⟩
  bind x f := ⟨(f x.value).value, x.trace ++ (f x.value).trace⟩

def touch (i : ι) : Traced ι PUnit := ⟨⟨⟩, [i]⟩

/-- Everything the computation touches satisfies `P`. -/
def All (P : ι → Prop) (x : Traced ι α) : Prop := ∀ i ∈ x.trace, P i

variable {P : ι → Prop}

@[simp] theorem value_pure (a : α) : (pure a : Traced ι α).value = a := rfl

@[simp] theorem value_bind (x : Traced ι α) (f : α → Traced ι β) :
    (x >>= f).value = (f x.value).value := rfl

@[simp] theorem value_ite (c : Prop) [Decidable c] (x y : Traced ι α) :
    (if c then x else y).value = if c then x.value else y.value := apply_ite value c x y

@[simp] theorem all_pure (a : α) : (pure a : Traced ι α).All P := fun _ member => by cases member

@[simp] theorem all_touch (i : ι) : (touch i).All P ↔ P i := by
  constructor
  · intro all
    exact all i (List.mem_singleton_self i)
  · intro holds j member
    rw [List.mem_singleton.mp member]
    exact holds

@[simp] theorem all_bind (x : Traced ι α) (f : α → Traced ι β) :
    (x >>= f).All P ↔ x.All P ∧ (f x.value).All P := by
  constructor
  · intro all
    exact ⟨fun i member => all i (List.mem_append_left _ member),
      fun i member => all i (List.mem_append_right _ member)⟩
  · rintro ⟨first, rest⟩ i member
    rcases List.mem_append.mp member with early | late
    · exact first i early
    · exact rest i late

theorem value_foldlM {f : β → α → Traced ι β} {g : β → α → β} (same : ∀ b a, (f b a).value = g b a)
    (l : List α) (b : β) : (l.foldlM f b).value = l.foldl g b := by
  induction l generalizing b with
  | nil => rfl
  | cons a l ih => rw [List.foldlM_cons, value_bind, ih, same, List.foldl_cons]

/-- What each round of a loop touches. -/
theorem of_all_foldlM {f : β → α → Traced ι β} {Q : α → Prop}
    (each : ∀ b a, (f b a).All P → Q a) {l : List α} {b : β} (all : (l.foldlM f b).All P) :
    ∀ a ∈ l, Q a := by
  induction l generalizing b with
  | nil => simp
  | cons a l ih =>
      rw [List.foldlM_cons, all_bind] at all
      rw [List.forall_mem_cons]
      exact ⟨each b a all.1, ih all.2⟩

/-- A loop whose rounds touch what they touch whatever they have found so far. -/
theorem all_foldlM {f : β → α → Traced ι β} {Q : α → Prop} (each : ∀ b a, (f b a).All P ↔ Q a)
    (l : List α) (b : β) : (l.foldlM f b).All P ↔ ∀ a ∈ l, Q a := by
  refine ⟨of_all_foldlM fun b a => (each b a).mp, ?_⟩
  induction l generalizing b with
  | nil => simp
  | cons a l ih =>
      intro all
      rw [List.forall_mem_cons] at all
      rw [List.foldlM_cons, all_bind]
      exact ⟨(each b a).mpr all.1, ih _ all.2⟩

end Traced
