import Mathlib.Data.EReal.Operations
import Mathlib.Order.Monotone.Basic
import Mathlib.Tactic.Ring

/-! Binary interchange formats: the numbers that sign and magnitude stand for, and
their order. -/

namespace Ieee

/-- The widths of the exponent field and of the fraction field. -/
structure Format where
  exponent : Nat
  fraction : Nat

def binary32 : Format := ⟨8, 23⟩
def binary64 : Format := ⟨11, 52⟩

namespace Format

variable (fmt : Format)

/-- The magnitude of infinity; above it are the NaNs. -/
def infinity : Nat := (2 ^ fmt.exponent - 1) * 2 ^ fmt.fraction

/-- A finite magnitude by its two fields, in units of the least positive number. -/
def scaled (exponent fraction : Nat) : Nat :=
  if exponent = 0 then fraction else (2 ^ fmt.fraction + fraction) * 2 ^ (exponent - 1)

def units (magnitude : Nat) : Nat :=
  fmt.scaled (magnitude / 2 ^ fmt.fraction) (magnitude % 2 ^ fmt.fraction)

/-- The least positive number. -/
noncomputable def least : ℝ :=
  (2 : ℝ) ^ ((2 : ℤ) - 2 ^ (fmt.exponent - 1) - fmt.fraction)

/-- The number of a magnitude that is not above infinity. -/
noncomputable def absValue (magnitude : Nat) : EReal :=
  if magnitude < fmt.infinity then ((fmt.units magnitude * fmt.least : ℝ) : EReal) else ⊤

noncomputable def value (negative : Bool) (magnitude : Nat) : EReal :=
  if negative then -fmt.absValue magnitude else fmt.absValue magnitude

end Format

/-- Sign and magnitude as an integer; both zeros are zero. -/
def signMagnitude (negative : Bool) (magnitude : Nat) : Int :=
  if negative then -magnitude else magnitude

/-! ### Magnitudes -/

namespace Format

variable (fmt : Format)

theorem scaled_lt_succ (exponent fraction : Nat) :
    fmt.scaled exponent fraction < fmt.scaled exponent (fraction + 1) := by
  unfold scaled
  split
  · exact Nat.lt_succ_self fraction
  · exact Nat.mul_lt_mul_of_pos_right (by omega) (Nat.two_pow_pos _)

/-- The last number with one exponent is below the first with the next. -/
theorem scaled_lt_carry (exponent : Nat) {fraction : Nat} (low : fraction < 2 ^ fmt.fraction) :
    fmt.scaled exponent fraction < fmt.scaled (exponent + 1) 0 := by
  have next : fmt.scaled (exponent + 1) 0 = 2 ^ fmt.fraction * 2 ^ exponent := by
    rw [scaled, if_neg (Nat.succ_ne_zero exponent), Nat.add_zero, Nat.add_sub_cancel]
  rw [next, scaled]
  split
  · next zero =>
      rw [zero, Nat.pow_zero, Nat.mul_one]
      exact low
  · next normal =>
      have double : 2 ^ exponent = 2 * 2 ^ (exponent - 1) := by
        rw [← Nat.pow_succ', Nat.succ_eq_add_one, Nat.sub_add_cancel (Nat.pos_of_ne_zero normal)]
      calc
        (2 ^ fmt.fraction + fraction) * 2 ^ (exponent - 1) <
            (2 * 2 ^ fmt.fraction) * 2 ^ (exponent - 1) :=
          Nat.mul_lt_mul_of_pos_right (by omega) (Nat.two_pow_pos _)
        _ = 2 ^ fmt.fraction * 2 ^ exponent := by
          rw [double]
          ring

theorem units_lt_succ (magnitude : Nat) : fmt.units magnitude < fmt.units (magnitude + 1) := by
  have positive : 0 < 2 ^ fmt.fraction := Nat.two_pow_pos _
  have low := Nat.mod_lt magnitude positive
  unfold units
  by_cases carry : magnitude % 2 ^ fmt.fraction + 1 = 2 ^ fmt.fraction
  · have whole : 2 ^ fmt.fraction ∣ magnitude + 1 := by
      apply Nat.dvd_of_mod_eq_zero
      rw [← Nat.mod_add_mod, carry, Nat.mod_self]
    rw [Nat.succ_div_of_dvd whole, Nat.mod_eq_zero_of_dvd whole]
    exact fmt.scaled_lt_carry _ low
  · have fraction : (magnitude + 1) % 2 ^ fmt.fraction = magnitude % 2 ^ fmt.fraction + 1 := by
      rw [← Nat.mod_add_mod, Nat.mod_eq_of_lt (by omega)]
    have exponent : (magnitude + 1) / 2 ^ fmt.fraction = magnitude / 2 ^ fmt.fraction := by
      apply Nat.succ_div_of_not_dvd
      intro whole
      rw [Nat.mod_eq_zero_of_dvd whole] at fraction
      omega
    rw [fraction, exponent]
    exact fmt.scaled_lt_succ _ _

theorem units_strictMono : StrictMono fmt.units := strictMono_nat_of_lt_succ fmt.units_lt_succ

theorem units_zero : fmt.units 0 = 0 := by
  simp [units, scaled]

theorem least_pos : 0 < fmt.least := by
  unfold least
  exact zpow_pos two_pos _

theorem absValue_zero (finite : 0 < fmt.infinity) : fmt.absValue 0 = 0 := by
  rw [absValue, if_pos finite, units_zero, Nat.cast_zero, zero_mul, EReal.coe_zero]

theorem absValue_lt_iff {left right : Nat} (leftLow : left ≤ fmt.infinity)
    (rightLow : right ≤ fmt.infinity) :
    fmt.absValue left < fmt.absValue right ↔ left < right := by
  unfold absValue
  by_cases leftFinite : left < fmt.infinity
  · by_cases rightFinite : right < fmt.infinity
    · rw [if_pos leftFinite, if_pos rightFinite, EReal.coe_lt_coe_iff,
        mul_lt_mul_iff_left₀ fmt.least_pos, Nat.cast_lt, fmt.units_strictMono.lt_iff_lt]
    · rw [if_pos leftFinite, if_neg rightFinite]
      exact iff_of_true (EReal.coe_lt_top _) (by omega)
  · rw [if_neg leftFinite]
    exact iff_of_false not_top_lt (by omega)

theorem absValue_pos_iff {magnitude : Nat} (low : magnitude ≤ fmt.infinity)
    (finite : 0 < fmt.infinity) : 0 < fmt.absValue magnitude ↔ 0 < magnitude := by
  rw [← fmt.absValue_lt_iff (Nat.zero_le _) low, fmt.absValue_zero finite]

theorem absValue_nonneg {magnitude : Nat} (low : magnitude ≤ fmt.infinity)
    (finite : 0 < fmt.infinity) : 0 ≤ fmt.absValue magnitude := by
  rw [← fmt.absValue_zero finite, ← not_lt, fmt.absValue_lt_iff low (Nat.zero_le _)]
  exact Nat.not_lt_zero _

/-! ### Signed numbers -/

/-- Two numbers around zero are equal only if both are zero. -/
theorem neg_lt_iff {left right : EReal} (leftNonneg : 0 ≤ left) (rightNonneg : 0 ≤ right) :
    -left < right ↔ 0 < left ∨ 0 < right := by
  constructor
  · intro below
    by_contra zeros
    obtain ⟨leftZero, rightZero⟩ := not_or.mp zeros
    have left_eq := le_antisymm (not_lt.mp leftZero) leftNonneg
    have right_eq := le_antisymm (not_lt.mp rightZero) rightNonneg
    rw [left_eq, right_eq, neg_zero] at below
    exact lt_irrefl _ below
  · rintro (positive | positive)
    · exact lt_of_lt_of_le (EReal.neg_lt_zero.mpr positive) rightNonneg
    · exact lt_of_le_of_lt (EReal.neg_le_zero.mpr leftNonneg) positive

/-- Numbers are ordered as sign and magnitude are. -/
theorem value_lt_iff {leftSign rightSign : Bool} {left right : Nat} (finite : 0 < fmt.infinity)
    (leftLow : left ≤ fmt.infinity) (rightLow : right ≤ fmt.infinity) :
    fmt.value leftSign left < fmt.value rightSign right ↔
      signMagnitude leftSign left < signMagnitude rightSign right := by
  cases leftSign <;> cases rightSign
  · simp only [value, signMagnitude, if_neg Bool.false_ne_true]
    rw [fmt.absValue_lt_iff leftLow rightLow, Nat.cast_lt]
  · have above : -fmt.absValue right ≤ fmt.absValue left :=
      le_trans (EReal.neg_le_zero.mpr (fmt.absValue_nonneg rightLow finite))
        (fmt.absValue_nonneg leftLow finite)
    simp only [value, signMagnitude, if_neg Bool.false_ne_true, if_true]
    exact iff_of_false (not_lt.mpr above) (by omega)
  · simp only [value, signMagnitude, if_neg Bool.false_ne_true, if_true]
    rw [neg_lt_iff (fmt.absValue_nonneg leftLow finite) (fmt.absValue_nonneg rightLow finite),
      fmt.absValue_pos_iff leftLow finite, fmt.absValue_pos_iff rightLow finite]
    omega
  · simp only [value, signMagnitude, if_true]
    rw [EReal.neg_lt_neg_iff, fmt.absValue_lt_iff rightLow leftLow, neg_lt_neg_iff, Nat.cast_lt]

end Format

/-! ### Patterns -/

section Patterns

variable {w : Nat}

/-- A field of `width` bits from bit `low` on, left in its place. -/
theorem and_field (x width low : Nat) :
    x &&& ((2 ^ width - 1) * 2 ^ low) = x / 2 ^ low % 2 ^ width * 2 ^ low := by
  apply Nat.eq_of_testBit_eq
  intro i
  rw [Nat.testBit_and, Nat.testBit_mul_two_pow, Nat.testBit_mul_two_pow,
    Nat.testBit_two_pow_sub_one, Nat.testBit_mod_two_pow, Nat.testBit_div_two_pow]
  by_cases above : low ≤ i
  · rw [decide_eq_true above, Bool.true_and, Bool.true_and, Nat.sub_add_cancel above, Bool.and_comm]
  · rw [decide_eq_false above, Bool.false_and, Bool.false_and, Bool.and_false]

theorem getLsbD_eq_div_mod (x : BitVec w) (i : Nat) :
    x.getLsbD i = decide (x.toNat / 2 ^ i % 2 = 1) := Nat.testBit_eq_decide_div_mod_eq

/-- The pattern without its sign bit. -/
def magnitude (f : BitVec (w + 1)) : Nat := (f.setWidth w).toNat

def order (f : BitVec (w + 1)) : Int := signMagnitude f.msb (magnitude f)

theorem eq_of_parts {f g : BitVec (w + 1)} (sign : f.msb = g.msb)
    (same : magnitude f = magnitude g) : f = g := by
  have low : f.setWidth w = g.setWidth w := BitVec.eq_of_toNat_eq same
  apply BitVec.eq_of_getLsbD_eq
  intro i inside
  by_cases top : i = w
  · rw [top]
    exact sign
  · have bits := congrArg (fun x : BitVec w => x.getLsbD i) low
    simpa [BitVec.getLsbD_setWidth, (by omega : i < w)] using bits

def zero (negative : Bool) : BitVec (w + 1) := if negative then BitVec.intMin (w + 1) else 0

theorem msb_zero (negative : Bool) : (zero negative : BitVec (w + 1)).msb = negative := by
  cases negative
  · exact BitVec.msb_zero
  · exact BitVec.msb_intMin.trans (decide_eq_true (Nat.succ_pos w))

theorem magnitude_zero (negative : Bool) : magnitude (zero negative : BitVec (w + 1)) = 0 := by
  cases negative
  · simp [magnitude, zero]
  · rw [magnitude, zero, if_pos rfl, BitVec.toNat_setWidth, BitVec.toNat_intMin,
      Nat.add_sub_cancel, Nat.mod_mod_of_dvd _ (Nat.pow_dvd_pow 2 (Nat.le_succ w)), Nat.mod_self]

theorem eq_zero_iff {f : BitVec (w + 1)} {negative : Bool} :
    f = zero negative ↔ magnitude f = 0 ∧ f.msb = negative := by
  constructor
  · intro isZero
    rw [isZero]
    exact ⟨magnitude_zero negative, msb_zero negative⟩
  · rintro ⟨empty, sign⟩
    exact eq_of_parts (sign.trans (msb_zero negative).symm)
      (empty.trans (magnitude_zero negative).symm)

/-- Only the two zeros are different and of one order. -/
theorem eq_of_order {f g : BitVec (w + 1)} (nonzero : ¬(magnitude f = 0 ∧ magnitude g = 0))
    (same : order f = order g) : f = g := by
  unfold order signMagnitude at same
  cases left : f.msb <;> cases right : g.msb <;>
    simp only [left, right, if_true, if_neg Bool.false_ne_true] at same
  · exact eq_of_parts (left.trans right.symm) (by omega)
  · exact absurd (by omega) nonzero
  · exact absurd (by omega) nonzero
  · exact eq_of_parts (left.trans right.symm) (by omega)

namespace Format

variable (fmt : Format)

def isNan (f : BitVec (w + 1)) : Bool := fmt.infinity < magnitude f

theorem isNan_zero (negative : Bool) : fmt.isNan (zero negative : BitVec (w + 1)) = false := by
  rw [isNan, magnitude_zero]
  exact decide_eq_false (Nat.not_lt_zero _)

/-- A NaN with its quiet bit clear. -/
def isSignaling (f : BitVec (w + 1)) : Bool := fmt.isNan f && !f.getLsbD (fmt.fraction - 1)

noncomputable def number (f : BitVec (w + 1)) : EReal := fmt.value f.msb (magnitude f)

theorem number_le_iff (finite : 0 < fmt.infinity) {f g : BitVec (w + 1)}
    (left : fmt.isNan f = false) (right : fmt.isNan g = false) :
    fmt.number f ≤ fmt.number g ↔ order f ≤ order g := by
  rw [← not_lt, ← not_lt]
  exact not_congr (fmt.value_lt_iff finite (not_lt.mp (of_decide_eq_false right))
    (not_lt.mp (of_decide_eq_false left)))

/-- Two numbers that are not both zero. -/
structure Comparable (f g : BitVec (w + 1)) : Prop where
  left : fmt.isNan f = false
  right : fmt.isNan g = false
  nonzero : ¬(magnitude f = 0 ∧ magnitude g = 0)

/-- One of two operands whose number is related to the numbers of both. -/
structure IsExtreme (rel : EReal → EReal → Prop) (f g r : BitVec (w + 1)) : Prop where
  operand : r = f ∨ r = g
  left : rel (fmt.number r) (fmt.number f)
  right : rel (fmt.number r) (fmt.number g)

variable {fmt} in
theorem Comparable.symm {f g : BitVec (w + 1)} (comparable : fmt.Comparable f g) :
    fmt.Comparable g f :=
  ⟨comparable.right, comparable.left, fun zeros => comparable.nonzero zeros.symm⟩

variable {fmt} in
theorem IsExtreme.symm {rel : EReal → EReal → Prop} {f g r : BitVec (w + 1)}
    (extreme : fmt.IsExtreme rel f g r) : fmt.IsExtreme rel g f r :=
  ⟨extreme.operand.symm, extreme.right, extreme.left⟩

/-- The numerically smaller operand. -/
def IsMinimum (f g r : BitVec (w + 1)) : Prop := fmt.IsExtreme (· ≤ ·) f g r

/-- The numerically larger operand. -/
def IsMaximum (f g r : BitVec (w + 1)) : Prop := fmt.IsExtreme (· ≥ ·) f g r

variable {fmt}

/-- A relation of numbers that is a linear order of the patterns chooses by it. -/
theorem isExtreme_iff {rel : EReal → EReal → Prop} {le : Int → Int → Prop} [DecidableRel le]
    (total : ∀ x y, le x y ∨ le y x) (antisymm : ∀ x y, le x y → le y x → x = y)
    {f g r : BitVec (w + 1)} (comparable : fmt.Comparable f g)
    (agree : ∀ x ∈ [f, g], ∀ y ∈ [f, g], rel (fmt.number x) (fmt.number y) ↔
      le (order x) (order y)) :
    fmt.IsExtreme rel f g r ↔ r = if le (order f) (order g) then f else g := by
  have refl : ∀ x, le x x := fun x => (total x x).elim id id
  have own : ∀ x ∈ [f, g], rel (fmt.number x) (fmt.number x) := fun x member =>
    (agree x member x member).mpr (refl _)
  have forward := agree f (by simp) g (by simp)
  have backward := agree g (by simp) f (by simp)
  constructor
  · rintro ⟨rfl | rfl, left, right⟩
    · rw [if_pos (forward.mp right)]
    · by_cases before : le (order f) (order r)
      · rw [if_pos before,
          eq_of_order comparable.nonzero (antisymm _ _ before (backward.mp left))]
      · rw [if_neg before]
  · intro chosen
    by_cases before : le (order f) (order g)
    · rw [if_pos before] at chosen
      rw [chosen]
      exact ⟨Or.inl rfl, own f (by simp), forward.mpr before⟩
    · rw [if_neg before] at chosen
      rw [chosen]
      exact ⟨Or.inr rfl, backward.mpr ((total _ _).resolve_left before), own g (by simp)⟩

theorem Comparable.number_le_iff (finite : 0 < fmt.infinity) {f g : BitVec (w + 1)}
    (comparable : fmt.Comparable f g) : ∀ x ∈ [f, g], ∀ y ∈ [f, g],
      fmt.number x ≤ fmt.number y ↔ order x ≤ order y := by
  have numbers : ∀ x ∈ [f, g], fmt.isNan x = false := by
    intro x member
    rcases List.mem_pair.mp member with rfl | rfl
    · exact comparable.left
    · exact comparable.right
  intro x left y right
  exact fmt.number_le_iff finite (numbers x left) (numbers y right)

theorem isMinimum_iff (finite : 0 < fmt.infinity) {f g r : BitVec (w + 1)}
    (comparable : fmt.Comparable f g) :
    fmt.IsMinimum f g r ↔ r = if order f ≤ order g then f else g :=
  isExtreme_iff le_total (fun _ _ => le_antisymm) comparable (comparable.number_le_iff finite)

theorem isMaximum_iff (finite : 0 < fmt.infinity) {f g r : BitVec (w + 1)}
    (comparable : fmt.Comparable f g) :
    fmt.IsMaximum f g r ↔ r = if order f ≥ order g then f else g :=
  isExtreme_iff (fun x y => le_total y x) (fun _ _ left right => le_antisymm right left) comparable
    fun x left y right => comparable.number_le_iff finite y right x left

end Format

end Patterns

end Ieee
