import Mathlib.Data.BitVec

/-! Single bits of words: what setting, clearing and masking do to them. -/

namespace BitField

variable {w : Nat}

theorem getLsbD_one_shiftLeft (n i : Nat) :
    (1#w <<< n).getLsbD i = (decide (i = n) && decide (i < w)) := by
  rw [BitVec.getLsbD_shiftLeft, BitVec.getLsbD_one]
  by_cases h : i = n
  · subst h
    by_cases hw : i < w
    · simp [hw]
      omega
    · simp [hw]
  · have hne : ¬(n ≤ i ∧ i - n = 0) := by omega
    simp only [h, decide_false, Bool.false_and]
    by_cases hlt : i < n
    · simp [hlt]
    · simp only [hlt, decide_false, Bool.not_false, Bool.and_true]
      have : i - n ≠ 0 := by omega
      simp [this]

/-- The lowest bit of a sum has no carry. -/
theorem getLsbD_zero_add (x y : BitVec w) :
    (x + y).getLsbD 0 = (x.getLsbD 0 ^^ y.getLsbD 0) := by
  by_cases positive : 0 < w
  · rw [BitVec.getLsbD_add positive, BitVec.carry_zero, Bool.xor_false]
  · obtain rfl : w = 0 := by omega
    simp

/-- Clearing the bits under a mask. -/
theorem getLsbD_and_not (x mask : BitVec w) (i : Nat) :
    (x &&& ~~~mask).getLsbD i = (x.getLsbD i && !mask.getLsbD i) := by
  rw [BitVec.getLsbD_and, BitVec.getLsbD_not]
  by_cases inside : i < w
  · rw [decide_eq_true inside, Bool.true_and]
  · rw [BitVec.getLsbD_of_ge x i (by omega), Bool.false_and, Bool.false_and]

theorem getLsbD_setBit (x : BitVec w) (n i : Nat) :
    (x ||| (1#w <<< n)).getLsbD i = (x.getLsbD i || (decide (i = n) && decide (i < w))) := by
  rw [BitVec.getLsbD_or, getLsbD_one_shiftLeft]

theorem getLsbD_clearBit (x : BitVec w) (n i : Nat) :
    (x &&& ~~~(1#w <<< n)).getLsbD i = (x.getLsbD i && !decide (i = n)) := by
  rw [getLsbD_and_not, getLsbD_one_shiftLeft]
  by_cases inside : i < w
  · rw [decide_eq_true inside, Bool.and_true]
  · rw [BitVec.getLsbD_of_ge x i (by omega), Bool.false_and, Bool.false_and]

/-- A field that is shifted into place. -/
theorem getLsbD_shiftField {v : Nat} (field : BitVec v) {n : Nat} (fits : n + v ≤ w) (i : Nat) :
    (field.setWidth w <<< n).getLsbD i = (decide (n ≤ i) && field.getLsbD (i - n)) := by
  rw [BitVec.getLsbD_shiftLeft, BitVec.getLsbD_setWidth]
  by_cases below : i < n
  · have notAbove : ¬n ≤ i := by omega
    simp [below, notAbove]
  · have above : n ≤ i := by omega
    by_cases within : i - n < v
    · have inside : i < w := by omega
      have reached : i - n < w := by omega
      simp [below, above, inside, reached]
    · rw [BitVec.getLsbD_of_ge field _ (by omega)]
      simp

theorem getLsbD_shiftFlag (flag : Bool) {n : Nat} (inside : n < w) (i : Nat) :
    ((BitVec.ofBool flag).setWidth w <<< n).getLsbD i = (decide (i = n) && flag) := by
  rw [getLsbD_shiftField _ (by omega)]
  by_cases here : i = n
  · subst here
    simp
  · by_cases above : n ≤ i
    · rw [BitVec.getLsbD_of_ge _ _ (by omega)]
      simp [here]
    · simp [here, above]

theorem getLsbD_lowMask {n : Nat} (small : n < w) (i : Nat) :
    ((1#w <<< n) - 1#w).getLsbD i = decide (i < n) := by
  have one : 1 < 2 ^ w := Nat.one_lt_two_pow (by omega)
  have power : 2 ^ n < 2 ^ w := Nat.pow_lt_pow_right (by omega) small
  have unit : (1#w).toNat = 1 := by
    rw [BitVec.toNat_ofNat, Nat.mod_eq_of_lt one]
  have shifted : (1#w <<< n).toNat = 2 ^ n := by
    rw [BitVec.toNat_shiftLeft, unit, Nat.one_shiftLeft, Nat.mod_eq_of_lt power]
  have below : 1#w ≤ 1#w <<< n := by
    rw [BitVec.le_def, unit, shifted]
    exact Nat.one_le_two_pow
  have value : ((1#w <<< n) - 1#w).toNat = 2 ^ n - 1 :=
    calc
      ((1#w <<< n) - 1#w).toNat = (1#w <<< n).toNat - (1#w).toNat := BitVec.toNat_sub_of_le below
      _ = 2 ^ n - 1 := by rw [shifted, unit]
  rw [BitVec.getLsbD, value, Nat.testBit_two_pow_sub_one]

/-- A word without bits under a mask keeps its bits outside it. -/
theorem and_not_of_and_zero {x mask : BitVec w} (disjoint : x &&& mask = 0) :
    x &&& ~~~mask = x := by
  apply BitVec.eq_of_getLsbD_eq
  intro i _
  have clear := congrArg (fun bits : BitVec w => bits.getLsbD i) disjoint
  simp only [BitVec.getLsbD_and] at clear
  rw [getLsbD_and_not]
  revert clear
  cases x.getLsbD i <;> cases mask.getLsbD i <;> simp

/-- Replacing the bits under a mask. -/
theorem getLsbD_replace (old new mask : BitVec w) (i : Nat) :
    ((old &&& ~~~mask) ||| (new &&& mask)).getLsbD i =
      if mask.getLsbD i then new.getLsbD i else old.getLsbD i := by
  rw [BitVec.getLsbD_or, getLsbD_and_not, BitVec.getLsbD_and]
  cases mask.getLsbD i <;> simp

/-- Replacing the bits under a mask by the word's own changes nothing. -/
theorem replace_own (x mask : BitVec w) : (x &&& ~~~mask) ||| (x &&& mask &&& mask) = x := by
  apply BitVec.eq_of_getLsbD_eq
  intro i _
  rw [getLsbD_replace, BitVec.getLsbD_and]
  cases mask.getLsbD i <;> simp

/-- The bits of a word that is put together from bytes. -/
theorem getLsbD_packBytes (byte : Nat → BitVec 8) (n i : Nat) :
    ((List.range n).foldl
      (fun word b => word ||| ((byte b).setWidth w <<< (b * 8))) 0#w).getLsbD i =
      (decide (i < w) && (decide (i < 8 * n) && (byte (i / 8)).getLsbD (i % 8))) := by
  induction n with
  | zero => simp
  | succ n ih =>
      rw [List.range_succ, List.foldl_append, List.foldl_cons, List.foldl_nil, BitVec.getLsbD_or,
        ih, BitVec.getLsbD_shiftLeft, BitVec.getLsbD_setWidth]
      by_cases inside : i < w
      · have reached : i - n * 8 < w := by omega
        simp only [inside, reached, decide_true, Bool.true_and]
        by_cases below : i < 8 * n
        · have under : i < n * 8 := by omega
          have within : i < 8 * (n + 1) := by omega
          simp [below, under, within]
        by_cases here : i < 8 * (n + 1)
        · have index : i / 8 = n := by omega
          have offset : i % 8 = i - n * 8 := by omega
          have above : ¬i < n * 8 := by omega
          simp [below, here, index, offset, above]
        · have past : 8 ≤ i - n * 8 := by omega
          rw [BitVec.getLsbD_of_ge (byte n) _ past]
          simp [below, here]
      · simp [inside]

theorem eq_zero_iff (x : BitVec w) : x = 0 ↔ ∀ i, x.getLsbD i = false := by
  constructor
  · intro h i
    rw [h]
    exact BitVec.getLsbD_zero
  · intro h
    apply BitVec.eq_of_getLsbD_eq
    intro i _
    rw [h i]
    exact BitVec.getLsbD_zero.symm

/-- Setting bits changes nothing when they are all set. -/
theorem or_eq_self_iff (x mask : BitVec w) : x ||| mask = x ↔ x &&& mask = mask := by
  have bitwise : ∀ a b : Bool, (a || b) = a ↔ (a && b) = b := by decide
  constructor
  · intro same
    apply BitVec.eq_of_getLsbD_eq
    intro i _
    have bits := congrArg (fun y : BitVec w => y.getLsbD i) same
    rw [BitVec.getLsbD_or] at bits
    rw [BitVec.getLsbD_and]
    exact (bitwise _ _).mp bits
  · intro same
    apply BitVec.eq_of_getLsbD_eq
    intro i _
    have bits := congrArg (fun y : BitVec w => y.getLsbD i) same
    rw [BitVec.getLsbD_and] at bits
    rw [BitVec.getLsbD_or]
    exact (bitwise _ _).mpr bits

/-- A field that is extended in two steps. -/
theorem signExtend_signExtend {v u : Nat} (x : BitVec v) (first : v ≤ w) (second : w ≤ u) :
    (x.signExtend w).signExtend u = x.signExtend u := by
  apply BitVec.eq_of_toInt_eq
  rw [BitVec.toInt_signExtend_of_le second, BitVec.toInt_signExtend_of_le first,
    BitVec.toInt_signExtend_of_le (le_trans first second)]

end BitField
