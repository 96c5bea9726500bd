import Riscmulator.Lib.Words
import Mathlib.Tactic.Linarith

/-! Multiplication and division of the M extension at any register width, as
exact integer arithmetic. -/

namespace Rvm

open Words

variable {w : Nat}

/-! ### Operations -/

inductive Op
  | mul | mulh | mulhsu | mulhu | div | divu | rem | remu
  deriving DecidableEq, Repr

/-- The result of an operation, from the exact product, quotient or remainder. -/
def Op.eval : Op → BitVec w → BitVec w → BitVec w
  | .mul, x, y => BitVec.ofInt w (x.toInt * y.toInt)
  | .mulh, x, y => BitVec.ofInt w (x.toInt * y.toInt / 2 ^ w)
  | .mulhsu, x, y => BitVec.ofInt w (x.toInt * y.toNat / 2 ^ w)
  | .mulhu, x, y => BitVec.ofInt w (x.toNat * y.toNat / 2 ^ w)
  | .div, x, y => if y = 0 then BitVec.allOnes w else BitVec.ofInt w (x.toInt.tdiv y.toInt)
  | .divu, x, y => if y = 0 then BitVec.allOnes w else BitVec.ofInt w (x.toNat / y.toNat)
  | .rem, x, y => BitVec.ofInt w (x.toInt.tmod y.toInt)
  | .remu, x, y => BitVec.ofInt w (x.toNat % y.toNat)

def Op.ofFunct3 : BitVec 3 → Op
  | 0 => .mul
  | 1 => .mulh
  | 2 => .mulhsu
  | 3 => .mulhu
  | 4 => .div
  | 5 => .divu
  | 6 => .rem
  | _ => .remu

/-- The upper halves have no word form. -/
def Op.hasWord : Op → Bool
  | .mulh | .mulhsu | .mulhu => false
  | _ => true

/-- The word form of an operation, on the lower halves of its operands. -/
def Op.evalWord (op : Op) (x y : BitVec 64) : BitVec 64 :=
  (op.eval (x.setWidth 32) (y.setWidth 32)).signExtend 64

/-! ### Upper halves -/

theorem mulh_eq (x y : BitVec w) :
    ((x.signExtend (w + w) * y.signExtend (w + w)) >>> w).setWidth w = Op.mulh.eval x y := by
  rw [signExtend_eq_ofInt x (by omega), signExtend_eq_ofInt y (by omega), ← BitVec.ofInt_mul,
    setWidth_ushiftRight_ofInt]
  rfl

theorem mulhsu_eq (x y : BitVec w) :
    ((x.signExtend (w + w) * y.setWidth (w + w)) >>> w).setWidth w = Op.mulhsu.eval x y := by
  rw [signExtend_eq_ofInt x (by omega), setWidth_eq_ofInt y, ← BitVec.ofInt_mul,
    setWidth_ushiftRight_ofInt]
  rfl

theorem mulhu_eq (x y : BitVec w) :
    ((x.setWidth (w + w) * y.setWidth (w + w)) >>> w).setWidth w = Op.mulhu.eval x y := by
  rw [setWidth_eq_ofInt x, setWidth_eq_ofInt y, ← BitVec.ofInt_mul, setWidth_ushiftRight_ofInt]
  rfl

/-! ### Products -/

/-- The two halves of each exact product. -/
structure Products (x y : BitVec w) : Prop where
  signed : x.toInt * y.toInt =
    (Op.mulh.eval x y).toInt * 2 ^ w + ((Op.mul.eval x y).toNat : Int)
  mixed : x.toInt * y.toNat =
    (Op.mulhsu.eval x y).toInt * 2 ^ w + ((Op.mul.eval x y).toNat : Int)
  unsigned : x.toNat * y.toNat = (Op.mulhu.eval x y).toNat * 2 ^ w + (Op.mul.eval x y).toNat

/-- The lower half does not depend on the signs that the operands are read with. -/
theorem mul_eq_mul (x y : BitVec w) : Op.mul.eval x y = x * y := by
  rw [Op.eval, BitVec.ofInt_mul, BitVec.ofInt_toInt, BitVec.ofInt_toInt]

theorem toNat_mul_of_ofInt {x y : BitVec w} {z : Int} (same : BitVec.ofInt w z = x * y) :
    ((Op.mul.eval x y).toNat : Int) = z % 2 ^ w := by
  have low : 0 ≤ z % 2 ^ w := Int.emod_nonneg z (by positivity)
  rw [mul_eq_mul, ← same, BitVec.toNat_ofInt]
  push_cast
  exact Int.toNat_of_nonneg low

/-- A product of a signed word and a smaller factor fits two words. -/
theorem toInt_high {a b : Int} (left : -2 ^ w ≤ 2 * a ∧ 2 * a < 2 ^ w)
    (right : -2 ^ w < b ∧ b < 2 ^ w) :
    (BitVec.ofInt w (a * b / 2 ^ w)).toInt = a * b / 2 ^ w := by
  have positive : (0 : Int) < 2 ^ w := by positivity
  generalize widthEq : (2 : Int) ^ w = width at *
  have above : 2 * (a * b) < width * width := by
    rcases le_total 0 b with nonneg | nonpos
    · nlinarith
    · nlinarith
  have below : -(width * (width - 1)) ≤ 2 * (a * b) := by
    rcases le_total 0 b with nonneg | nonpos
    · nlinarith
    · nlinarith
  have floor : width * (a * b / width) ≤ a * b := Int.mul_ediv_self_le (ne_of_gt positive)
  have next : a * b < width * (a * b / width) + width := Int.lt_mul_ediv_self_add positive
  rw [BitVec.toInt_ofInt]
  apply Int.bmod_eq_of_le_mul_two
  · push_cast
    rw [widthEq]
    by_contra low
    nlinarith
  · push_cast
    rw [widthEq]
    by_contra high
    nlinarith

theorem products (x y : BitVec w) : Products x y := by
  have positive : (0 : Int) < 2 ^ w := by positivity
  have left : -2 ^ w ≤ 2 * x.toInt ∧ 2 * x.toInt < 2 ^ w :=
    ⟨BitVec.le_two_mul_toInt, BitVec.two_mul_toInt_lt⟩
  have signedRight : -2 ^ w < y.toInt ∧ y.toInt < 2 ^ w := by
    have lower := BitVec.le_two_mul_toInt (x := y)
    have upper := BitVec.two_mul_toInt_lt (x := y)
    constructor <;> linarith
  have unsignedRight : -2 ^ w < (y.toNat : Int) ∧ (y.toNat : Int) < 2 ^ w := by
    have upper : (y.toNat : Int) < 2 ^ w := by exact_mod_cast y.isLt
    constructor <;> linarith [Int.natCast_nonneg y.toNat]
  constructor
  · have high : (Op.mulh.eval x y).toInt = x.toInt * y.toInt / 2 ^ w := toInt_high left signedRight
    rw [high, toNat_mul_of_ofInt (mul_eq_mul x y)]
    exact (Int.ediv_mul_add_emod _ _).symm
  · have same : BitVec.ofInt w (x.toInt * y.toNat) = x * y := by
      rw [BitVec.ofInt_mul, BitVec.ofInt_toInt, ofInt_toNat]
    have high : (Op.mulhsu.eval x y).toInt = x.toInt * y.toNat / 2 ^ w :=
      toInt_high left unsignedRight
    rw [high, toNat_mul_of_ofInt same]
    exact (Int.ediv_mul_add_emod _ _).symm
  · have high : x.toNat * y.toNat / 2 ^ w < 2 ^ w := by
      apply Nat.div_lt_of_lt_mul
      exact Nat.mul_lt_mul'' x.isLt y.isLt
    have value : (Op.mulhu.eval x y).toNat = x.toNat * y.toNat / 2 ^ w := by
      have cast : ((x.toNat : Int) * y.toNat / 2 ^ w) =
          ((x.toNat * y.toNat / 2 ^ w : Nat) : Int) := by
        push_cast
        rfl
      rw [Op.eval, cast, BitVec.ofInt_natCast, BitVec.toNat_ofNat, Nat.mod_eq_of_lt high]
    rw [value, mul_eq_mul, BitVec.toNat_mul]
    exact (Nat.div_add_mod' _ _).symm

/-! ### Quotients and remainders -/

structure SignedDivision (dividend divisor quotient remainder : BitVec w) : Prop where
  euclid : dividend = divisor * quotient + remainder
  byZero : divisor = 0 → quotient = BitVec.allOnes w ∧ remainder = dividend
  overflow : dividend = BitVec.intMin w → divisor = -1 → quotient = dividend ∧ remainder = 0
  truncated : divisor ≠ 0 → (dividend ≠ BitVec.intMin w ∨ divisor ≠ -1) →
    quotient.toInt = dividend.toInt.tdiv divisor.toInt
  sign : remainder ≠ 0 → remainder.toInt.sign = dividend.toInt.sign
  smaller : divisor ≠ 0 → remainder.toInt.natAbs < divisor.toInt.natAbs

structure UnsignedDivision (dividend divisor quotient remainder : BitVec w) : Prop where
  euclid : dividend = divisor * quotient + remainder
  byZero : divisor = 0 → quotient = BitVec.allOnes w ∧ remainder = dividend
  floor : divisor ≠ 0 → quotient.toNat = dividend.toNat / divisor.toNat
  smaller : divisor ≠ 0 → remainder.toNat < divisor.toNat

theorem toInt_rem (x y : BitVec w) : (Op.rem.eval x y).toInt = x.toInt.tmod y.toInt := by
  rw [Op.eval, ← srem_eq_ofInt, BitVec.toInt_srem]

theorem signedDivision (x y : BitVec w) :
    SignedDivision x y (Op.div.eval x y) (Op.rem.eval x y) := by
  constructor
  · by_cases zero : y = 0
    · rw [Op.eval, Op.eval, if_pos zero, zero]
      simp
    · rw [Op.eval, Op.eval, if_neg zero]
      calc
        x = BitVec.ofInt w (y.toInt * x.toInt.tdiv y.toInt + x.toInt.tmod y.toInt) := by
          rw [Int.mul_tdiv_add_tmod, BitVec.ofInt_toInt]
        _ = y * BitVec.ofInt w (x.toInt.tdiv y.toInt) + BitVec.ofInt w (x.toInt.tmod y.toInt) := by
          rw [BitVec.ofInt_add, BitVec.ofInt_mul, BitVec.ofInt_toInt]
  · intro zero
    constructor
    · rw [Op.eval, if_pos zero]
    · apply BitVec.eq_of_toInt_eq
      have value : y.toInt = 0 := (congrArg BitVec.toInt zero).trans BitVec.toInt_zero
      rw [toInt_rem, value, Int.tmod_zero]
  · intro least minusOne
    rcases Nat.eq_zero_or_pos w with rfl | positive
    · exact ⟨Subsingleton.elim _ _, Subsingleton.elim _ _⟩
    have ones : y = BitVec.allOnes w := minusOne.trans BitVec.neg_one_eq_allOnes
    have divisor : y.toInt = -1 := by
      rw [ones, BitVec.toInt_allOnes, if_pos positive]
    constructor
    · have nonzero : y ≠ 0 := by
        intro zero
        rw [zero, BitVec.ofNat_eq_ofNat, BitVec.toInt_zero] at divisor
        cases divisor
      rw [Op.eval, if_neg nonzero, ← sdiv_eq_ofInt, least, minusOne]
      exact BitVec.intMin_sdiv_neg_one
    · apply BitVec.eq_of_toInt_eq
      rw [toInt_rem, divisor, Int.tmod_neg, Int.tmod_one]
      exact BitVec.toInt_zero.symm
  · intro nonzero inRange
    rw [Op.eval, if_neg nonzero, ← sdiv_eq_ofInt]
    exact BitVec.toInt_sdiv_of_ne_or_ne x y inRange
  · intro nonzero
    have remainder : x.toInt.tmod y.toInt ≠ 0 := by
      intro zero
      apply nonzero
      apply BitVec.eq_of_toInt_eq
      rw [toInt_rem, zero]
      exact BitVec.toInt_zero.symm
    rw [toInt_rem, Int.sign_tmod, if_neg]
    intro divides
    exact remainder (Int.tmod_eq_zero_of_dvd divides)
  · intro nonzero
    have divisor : y.toInt ≠ 0 := by
      intro zero
      exact nonzero (BitVec.eq_of_toInt_eq (zero.trans BitVec.toInt_zero.symm))
    rw [toInt_rem, Int.natAbs_tmod]
    exact Nat.mod_lt _ (Int.natAbs_pos.mpr divisor)

theorem unsignedDivision (x y : BitVec w) :
    UnsignedDivision x y (Op.divu.eval x y) (Op.remu.eval x y) := by
  have quotient : y ≠ 0 → Op.divu.eval x y = x / y := by
    intro nonzero
    rw [Op.eval, if_neg nonzero, udiv_eq_ofInt]
    rfl
  have remainder : Op.remu.eval x y = x % y := (umod_eq_ofInt x y).symm
  constructor
  · by_cases zero : y = 0
    · rw [remainder, zero]
      simp
    · rw [quotient zero, remainder]
      exact (mul_udiv_add_umod x y).symm
  · intro zero
    constructor
    · rw [Op.eval, if_pos zero]
    · rw [remainder, zero]
      exact BitVec.umod_zero
  · intro nonzero
    rw [quotient nonzero, BitVec.toNat_udiv]
  · intro nonzero
    rw [remainder, BitVec.toNat_umod]
    apply Nat.mod_lt
    by_contra zero
    exact nonzero (BitVec.eq_of_toNat_eq (Nat.eq_zero_of_not_pos zero))

/-- What the ISA requires of the results on one pair of operands. -/
structure Laws (x y : BitVec w) : Prop where
  products : Products x y
  signed : SignedDivision x y (Op.div.eval x y) (Op.rem.eval x y)
  unsigned : UnsignedDivision x y (Op.divu.eval x y) (Op.remu.eval x y)

theorem laws (x y : BitVec w) : Laws x y :=
  ⟨products x y, signedDivision x y, unsignedDivision x y⟩

end Rvm
