import Mathlib.Data.BitVec
import Mathlib.Algebra.Order.Ring.Int
import Mathlib.Tactic.Ring
import Mathlib.Tactic.Zify
import Mathlib.Tactic.Positivity

/-! Words as the integers that they stand for: arithmetic on a word is arithmetic on an
integer, wrapped to the width. -/

namespace Words

variable {w : Nat}

/-! ### Wrapping -/

theorem ofInt_toNat (x : BitVec w) : BitVec.ofInt w x.toNat = x := by
  rw [BitVec.ofInt_natCast, BitVec.ofNat_toNat, BitVec.setWidth_eq]

theorem signExtend_eq_ofInt (x : BitVec w) {v : Nat} (wider : w ≤ v) :
    x.signExtend v = BitVec.ofInt v x.toInt := by
  rw [← BitVec.toInt_signExtend_of_le wider, BitVec.ofInt_toInt]

theorem setWidth_eq_ofInt (x : BitVec w) (v : Nat) : x.setWidth v = BitVec.ofInt v x.toNat := by
  rw [BitVec.ofInt_natCast, BitVec.ofNat_toNat]

theorem setWidth_ofInt (z : Int) {v : Nat} (narrower : v ≤ w) :
    (BitVec.ofInt w z).setWidth v = BitVec.ofInt v z := by
  have divides : ((2 ^ v : Nat) : Int) ∣ ((2 ^ w : Nat) : Int) :=
    Int.natCast_dvd_natCast.mpr (Nat.pow_dvd_pow 2 narrower)
  have positive : (0 : Int) < ((2 ^ w : Nat) : Int) := by positivity
  apply BitVec.eq_of_toNat_eq
  calc
    _ = (z % ((2 ^ w : Nat) : Int)).toNat % 2 ^ v := by
      rw [BitVec.toNat_setWidth, BitVec.toNat_ofInt]
    _ = (z % ((2 ^ w : Nat) : Int) % ((2 ^ v : Nat) : Int)).toNat := by
      rw [Int.toNat_emod (Int.emod_nonneg z (ne_of_gt positive)) (by positivity),
        Int.toNat_natCast]
    _ = (z % ((2 ^ v : Nat) : Int)).toNat := by rw [Int.emod_emod_of_dvd z divides]
    _ = (BitVec.ofInt v z).toNat := (BitVec.toNat_ofInt z).symm

theorem setWidth_signExtend (x : BitVec w) {v : Nat} (wider : w ≤ v) :
    (x.signExtend v).setWidth w = x := by
  rw [signExtend_eq_ofInt x wider, setWidth_ofInt _ wider, BitVec.ofInt_toInt]

theorem emod_mul_ediv (z : Int) {n : Int} (positive : 0 < n) : z % (n * n) / n = z / n % n := by
  have quotient : z / (n * n) = z / n / n := (Int.ediv_ediv_of_nonneg (le_of_lt positive)).symm
  calc
    z % (n * n) / n = (z + n * -(n * (z / (n * n)))) / n := by
      rw [Int.emod_def]
      congr 1
      ring
    _ = z / n + -(n * (z / (n * n))) := Int.add_mul_ediv_left z _ (ne_of_gt positive)
    _ = z / n % n := by
      rw [Int.emod_def, quotient]
      ring

/-- The upper half of a word of twice the width. -/
theorem setWidth_ushiftRight_ofInt (z : Int) :
    ((BitVec.ofInt (w + w) z) >>> w).setWidth w = BitVec.ofInt w (z / 2 ^ w) := by
  have positive : (0 : Int) < 2 ^ w := by positivity
  have low : 0 ≤ z % (2 ^ w * 2 ^ w) := Int.emod_nonneg z (by positivity)
  have half : (z % (2 ^ w * 2 ^ w)).toNat / 2 ^ w = (z / 2 ^ w % 2 ^ w).toNat := by
    rw [← emod_mul_ediv z positive]
    zify
    rw [Int.toNat_of_nonneg low, Int.toNat_of_nonneg (Int.ediv_nonneg low (le_of_lt positive))]
  apply BitVec.eq_of_toNat_eq
  rw [BitVec.toNat_setWidth, BitVec.toNat_ushiftRight, BitVec.toNat_ofInt, BitVec.toNat_ofInt,
    Nat.shiftRight_eq_div_pow]
  push_cast
  rw [pow_add, half]
  apply Nat.mod_eq_of_lt
  zify
  rw [Int.toNat_of_nonneg (Int.emod_nonneg _ (ne_of_gt positive))]
  exact Int.emod_lt_of_pos _ positive

theorem sdiv_eq_ofInt (x y : BitVec w) : x.sdiv y = BitVec.ofInt w (x.toInt.tdiv y.toInt) := by
  apply BitVec.eq_of_toInt_eq
  rw [BitVec.toInt_sdiv, BitVec.toInt_ofInt]

theorem srem_eq_ofInt (x y : BitVec w) : x.srem y = BitVec.ofInt w (x.toInt.tmod y.toInt) := by
  rw [← BitVec.toInt_srem, BitVec.ofInt_toInt]

theorem udiv_eq_ofInt (x y : BitVec w) : x / y = BitVec.ofInt w (x.toNat / y.toNat : Nat) := by
  rw [← BitVec.toNat_udiv, ofInt_toNat]

theorem umod_eq_ofInt (x y : BitVec w) : x % y = BitVec.ofInt w (x.toNat % y.toNat : Nat) := by
  rw [← BitVec.toNat_umod, ofInt_toNat]

theorem mul_udiv_add_umod (x y : BitVec w) : y * (x / y) + x % y = x := by
  apply BitVec.eq_of_toNat_eq
  rw [BitVec.toNat_add, BitVec.toNat_mul, BitVec.toNat_udiv, BitVec.toNat_umod, Nat.mod_add_mod,
    Nat.div_add_mod, Nat.mod_eq_of_lt x.isLt]

/-! ### Shifts -/

theorem ofNat_mul_two_pow (x : BitVec w) (n : Nat) :
    BitVec.ofNat w (x.toNat * 2 ^ n) = x <<< n := by
  apply BitVec.eq_of_toNat_eq
  rw [BitVec.toNat_ofNat, BitVec.toNat_shiftLeft, Nat.shiftLeft_eq]

theorem ofNat_div_two_pow (x : BitVec w) (n : Nat) :
    BitVec.ofNat w (x.toNat / 2 ^ n) = x >>> n := by
  apply BitVec.eq_of_toNat_eq
  rw [← Nat.shiftRight_eq_div_pow, ← BitVec.toNat_ushiftRight, BitVec.ofNat_toNat,
    BitVec.setWidth_eq]

theorem ofInt_div_two_pow (x : BitVec w) (n : Nat) :
    BitVec.ofInt w (x.toInt / 2 ^ n) = x.sshiftRight n := by
  rw [BitVec.sshiftRight, Int.shiftRight_eq_div_pow]
  norm_cast

/-! ### Wider words -/

section Wider

variable {v : Nat} (x y : BitVec w)

theorem setWidth_sdiv_signExtend (wider : w ≤ v) :
    ((x.signExtend v).sdiv (y.signExtend v)).setWidth w = x.sdiv y := by
  calc
    _ = BitVec.ofInt w ((x.signExtend v).toInt.tdiv (y.signExtend v).toInt) := by
      rw [sdiv_eq_ofInt, setWidth_ofInt _ wider]
    _ = BitVec.ofInt w (x.toInt.tdiv y.toInt) := by
      rw [BitVec.toInt_signExtend_of_le wider, BitVec.toInt_signExtend_of_le wider]
    _ = x.sdiv y := (sdiv_eq_ofInt x y).symm

theorem setWidth_srem_signExtend (wider : w ≤ v) :
    ((x.signExtend v).srem (y.signExtend v)).setWidth w = x.srem y := by
  calc
    _ = BitVec.ofInt w ((x.signExtend v).toInt.tmod (y.signExtend v).toInt) := by
      rw [srem_eq_ofInt, setWidth_ofInt _ wider]
    _ = BitVec.ofInt w (x.toInt.tmod y.toInt) := by
      rw [BitVec.toInt_signExtend_of_le wider, BitVec.toInt_signExtend_of_le wider]
    _ = x.srem y := (srem_eq_ofInt x y).symm

theorem setWidth_udiv_setWidth (wider : w ≤ v) :
    (x.setWidth v / y.setWidth v).setWidth w = x / y := by
  calc
    _ = BitVec.ofInt w ((x.setWidth v).toNat / (y.setWidth v).toNat : Nat) := by
      rw [udiv_eq_ofInt, setWidth_ofInt _ wider]
    _ = BitVec.ofInt w (x.toNat / y.toNat : Nat) := by
      rw [BitVec.toNat_setWidth_of_le wider, BitVec.toNat_setWidth_of_le wider]
    _ = x / y := (udiv_eq_ofInt x y).symm

theorem setWidth_umod_setWidth (wider : w ≤ v) :
    (x.setWidth v % y.setWidth v).setWidth w = x % y := by
  calc
    _ = BitVec.ofInt w ((x.setWidth v).toNat % (y.setWidth v).toNat : Nat) := by
      rw [umod_eq_ofInt, setWidth_ofInt _ wider]
    _ = BitVec.ofInt w (x.toNat % y.toNat : Nat) := by
      rw [BitVec.toNat_setWidth_of_le wider, BitVec.toNat_setWidth_of_le wider]
    _ = x % y := (umod_eq_ofInt x y).symm

theorem setWidth_shiftLeft_setWidth (wider : w ≤ v) (n : Nat) :
    (x.setWidth v <<< n).setWidth w = x <<< n := by
  calc
    _ = BitVec.ofInt w ((x.setWidth v).toNat * 2 ^ n : Nat) := by
      rw [← ofNat_mul_two_pow, ← BitVec.ofInt_natCast, setWidth_ofInt _ wider]
    _ = BitVec.ofNat w (x.toNat * 2 ^ n) := by
      rw [BitVec.toNat_setWidth_of_le wider, BitVec.ofInt_natCast]
    _ = x <<< n := ofNat_mul_two_pow x n

theorem setWidth_ushiftRight_setWidth (wider : w ≤ v) (n : Nat) :
    (x.setWidth v >>> n).setWidth w = x >>> n := by
  calc
    _ = BitVec.ofInt w ((x.setWidth v).toNat / 2 ^ n : Nat) := by
      rw [← ofNat_div_two_pow, ← BitVec.ofInt_natCast, setWidth_ofInt _ wider]
    _ = BitVec.ofNat w (x.toNat / 2 ^ n) := by
      rw [BitVec.toNat_setWidth_of_le wider, BitVec.ofInt_natCast]
    _ = x >>> n := ofNat_div_two_pow x n

theorem setWidth_sshiftRight_signExtend (wider : w ≤ v) (n : Nat) :
    ((x.signExtend v).sshiftRight n).setWidth w = x.sshiftRight n := by
  calc
    _ = BitVec.ofInt w ((x.signExtend v).toInt / 2 ^ n) := by
      rw [← ofInt_div_two_pow, setWidth_ofInt _ wider]
    _ = BitVec.ofInt w (x.toInt / 2 ^ n) := by rw [BitVec.toInt_signExtend_of_le wider]
    _ = x.sshiftRight n := ofInt_div_two_pow x n

theorem signExtend_eq_zero_iff (wider : w ≤ v) : x.signExtend v = 0 ↔ x = 0 := by
  constructor
  · intro zero
    have value := congrArg BitVec.toInt zero
    rw [BitVec.toInt_signExtend_of_le wider] at value
    exact BitVec.eq_of_toInt_eq (value.trans (BitVec.toInt_zero.trans BitVec.toInt_zero.symm))
  · rintro rfl
    apply BitVec.eq_of_toInt_eq
    rw [BitVec.toInt_signExtend_of_le wider]
    exact BitVec.toInt_zero.trans BitVec.toInt_zero.symm

theorem setWidth_eq_zero_iff (wider : w ≤ v) : x.setWidth v = 0 ↔ x = 0 := by
  constructor
  · intro zero
    have value := congrArg BitVec.toNat zero
    rw [BitVec.toNat_setWidth_of_le wider] at value
    exact BitVec.eq_of_toNat_eq value
  · rintro rfl
    exact BitVec.setWidth_zero v w

end Wider

end Words
