import Mathlib.Logic.Function.Basic

/-! Items copied in order, each to a position of its own: what every position ends up
holding. -/

namespace Overlay

variable {α : Type*} (pos : Nat → Nat) (src dst : Nat → α)

/-- `dst` after items `0` to `n - 1` are copied, item `i` to position `pos i`. -/
def overlay : Nat → Nat → α
  | 0 => dst
  | n + 1 => Function.update (overlay n) (pos n) (src n)

variable {pos src dst}

/-- Copying more items is copying them over what the first ones left. -/
theorem overlay_add (first n : Nat) :
    overlay pos src dst (first + n) =
      overlay (fun i => pos (first + i)) (fun i => src (first + i))
        (overlay pos src dst first) n := by
  induction n with
  | zero => rfl
  | succ n ih => rw [← Nat.add_assoc, overlay, overlay, ih]

theorem overlay_congr {pos' : Nat → Nat} {src' dst' : Nat → α} {n : Nat}
    (samePos : ∀ i < n, pos i = pos' i) (sameSrc : ∀ i < n, src i = src' i) (j : Nat)
    (sameDst : dst j = dst' j) : overlay pos src dst n j = overlay pos' src' dst' n j := by
  induction n with
  | zero => exact sameDst
  | succ n ih =>
      have before := ih (fun i inside => samePos i (Nat.lt_succ_of_lt inside))
        (fun i inside => sameSrc i (Nat.lt_succ_of_lt inside))
      rw [overlay, overlay, samePos n (Nat.lt_succ_self n), sameSrc n (Nat.lt_succ_self n),
        Function.update_apply, Function.update_apply, before]

/-- Items copied to their own places replace the start of `dst`. -/
theorem overlay_own {n : Nat} (own : ∀ i < n, pos i = i) (j : Nat) :
    overlay pos src dst n j = if j < n then src j else dst j := by
  induction n with
  | zero => rfl
  | succ n ih =>
      rw [overlay, own n (Nat.lt_succ_self n), Function.update_apply,
        ih fun i inside => own i (Nat.lt_succ_of_lt inside)]
      by_cases last : j = n
      · rw [if_pos last, if_pos (by omega), last]
      · rw [if_neg last]
        by_cases before : j < n
        · rw [if_pos before, if_pos (by omega)]
        · rw [if_neg before, if_neg (by omega)]

end Overlay
