import Riscmulator.Lib.Words

/-! The read-modify-write operations of the A extension at any width, and how they are
carried out on extended copies of their operands. -/

namespace Rva

open Words

variable {w : Nat}

inductive Op
  | swap | add | xor | or | and | min | max | minu | maxu
  deriving DecidableEq, Repr

/-- The new value in memory, from the old one and the register operand. -/
def eval : Op → BitVec w → BitVec w → BitVec w
  | .swap, _, y => y
  | .add, x, y => x + y
  | .xor, x, y => x ^^^ y
  | .or, x, y => x ||| y
  | .and, x, y => x &&& y
  | .min, x, y => BitVec.ofInt w (min x.toInt y.toInt)
  | .max, x, y => BitVec.ofInt w (max x.toInt y.toInt)
  | .minu, x, y => BitVec.ofNat w (min x.toNat y.toNat)
  | .maxu, x, y => BitVec.ofNat w (max x.toNat y.toNat)

def ops : List (BitVec 5 × Op) :=
  [(0x01, .swap), (0x00, .add), (0x04, .xor), (0x08, .or), (0x0C, .and), (0x10, .min),
   (0x14, .max), (0x18, .minu), (0x1C, .maxu)]

def ofFunct5 (funct5 : BitVec 5) : Option Op := ops.lookup funct5

/-- An operation on operands that were extended with zeros and with their signs. -/
def evalExtended (op : Op) (x y xS yS : BitVec w) : BitVec w :=
  match op with
  | .swap => y
  | .add => x + y
  | .xor => x ^^^ y
  | .or => x ||| y
  | .and => x &&& y
  | .min => if xS.slt yS then x else y
  | .max => if yS.slt xS then x else y
  | .minu => if x < y then x else y
  | .maxu => if x > y then x else y

/-! ### Comparisons -/

theorem slt_signExtend (x y : BitVec w) {v : Nat} (wider : w ≤ v) :
    (x.signExtend v).slt (y.signExtend v) = x.slt y := by
  rw [BitVec.slt_eq_decide, BitVec.slt_eq_decide, BitVec.toInt_signExtend_of_le wider,
    BitVec.toInt_signExtend_of_le wider]

theorem lt_setWidth (x y : BitVec w) {v : Nat} (wider : w ≤ v) :
    x.setWidth v < y.setWidth v ↔ x < y := by
  rw [BitVec.lt_def, BitVec.lt_def, BitVec.toNat_setWidth_of_le wider,
    BitVec.toNat_setWidth_of_le wider]

theorem min_eval (x y : BitVec w) : eval .min x y = if x.slt y then x else y := by
  rw [eval, BitVec.slt_eq_decide]
  by_cases below : x.toInt < y.toInt
  · rw [min_eq_left (le_of_lt below), BitVec.ofInt_toInt, decide_eq_true below, if_pos rfl]
  · rw [min_eq_right (not_lt.mp below), BitVec.ofInt_toInt, decide_eq_false below]
    rfl

theorem max_eval (x y : BitVec w) : eval .max x y = if y.slt x then x else y := by
  rw [eval, BitVec.slt_eq_decide]
  by_cases above : y.toInt < x.toInt
  · rw [max_eq_left (le_of_lt above), BitVec.ofInt_toInt, decide_eq_true above, if_pos rfl]
  · rw [max_eq_right (not_lt.mp above), BitVec.ofInt_toInt, decide_eq_false above]
    rfl

theorem minu_eval (x y : BitVec w) : eval .minu x y = if x < y then x else y := by
  rw [eval]
  by_cases below : x < y
  · rw [min_eq_left (le_of_lt (BitVec.lt_def.mp below)), BitVec.ofNat_toNat, BitVec.setWidth_eq,
      if_pos below]
  · have least := not_lt.mp (mt BitVec.lt_def.mpr below)
    rw [min_eq_right least, BitVec.ofNat_toNat, BitVec.setWidth_eq, if_neg below]

theorem maxu_eval (x y : BitVec w) : eval .maxu x y = if x > y then x else y := by
  rw [eval]
  by_cases above : y < x
  · rw [max_eq_left (le_of_lt (BitVec.lt_def.mp above)), BitVec.ofNat_toNat, BitVec.setWidth_eq,
      if_pos above]
  · have most := not_lt.mp (mt BitVec.lt_def.mpr above)
    rw [max_eq_right most, BitVec.ofNat_toNat, BitVec.setWidth_eq, if_neg above]

/-! ### Extended operands -/

theorem setWidth_ite {v : Nat} (c : Prop) [Decidable c] (x y : BitVec v) :
    (if c then x else y).setWidth w = if c then x.setWidth w else y.setWidth w :=
  apply_ite _ _ _ _

/-- The low bits of the result are the operation at the width of the operands. -/
theorem evalExtended_eq (op : Op) (x y : BitVec w) {v : Nat} (wider : w ≤ v) :
    (evalExtended op (x.setWidth v) (y.setWidth v) (x.signExtend v) (y.signExtend v)).setWidth w =
      eval op x y := by
  have back (z : BitVec w) : (z.setWidth v).setWidth w = z := by
    rw [BitVec.setWidth_setWidth_of_le _ wider, BitVec.setWidth_eq]
  cases op with
  | swap => exact back y
  | add =>
      rw [evalExtended, BitVec.setWidth_add _ _ wider, back, back]
      rfl
  | xor =>
      rw [evalExtended, BitVec.setWidth_xor, back, back]
      rfl
  | or =>
      rw [evalExtended, BitVec.setWidth_or, back, back]
      rfl
  | and =>
      rw [evalExtended, BitVec.setWidth_and, back, back]
      rfl
  | min =>
      rw [evalExtended, slt_signExtend x y wider, setWidth_ite, back, back, min_eval]
  | max =>
      rw [evalExtended, slt_signExtend y x wider, setWidth_ite, back, back, max_eval]
  | minu =>
      simp only [evalExtended, lt_setWidth x y wider]
      rw [setWidth_ite, back, back, minu_eval]
  | maxu =>
      simp only [evalExtended, gt_iff_lt, lt_setWidth y x wider]
      rw [setWidth_ite, back, back, maxu_eval]

end Rva
