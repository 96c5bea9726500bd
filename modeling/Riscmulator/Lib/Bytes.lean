import Mathlib.Data.BitVec

/-! The bytes of a word, least significant first. -/

namespace Bytes

variable {w : Nat}

def byte (x : BitVec w) (i : Nat) : BitVec 8 := (x >>> (8 * i)).setWidth 8

theorem getLsbD_byte (x : BitVec w) (i j : Nat) :
    (byte x i).getLsbD j = (decide (j < 8) && x.getLsbD (8 * i + j)) := by
  rw [byte, BitVec.getLsbD_setWidth, BitVec.getLsbD_ushiftRight]

/-- Words with the same bytes are equal. -/
theorem eq_of_byte {x y : BitVec w} {n : Nat} (covers : w ≤ 8 * n)
    (same : ∀ i < n, byte x i = byte y i) : x = y := by
  apply BitVec.eq_of_getLsbD_eq
  intro k inside
  have bits := congrArg (fun b : BitVec 8 => b.getLsbD (k % 8)) (same (k / 8) (by omega))
  simp only [getLsbD_byte, Nat.div_add_mod, Nat.mod_lt k (by decide : 0 < 8), decide_true,
    Bool.true_and] at bits
  exact bits

theorem byte_or (x y : BitVec w) (i : Nat) : byte (x ||| y) i = byte x i ||| byte y i := by
  apply BitVec.eq_of_getLsbD_eq
  intro j low
  simp only [getLsbD_byte, BitVec.getLsbD_or, low, decide_true, Bool.true_and]

theorem byte_setWidth (x : BitVec w) {v i : Nat} (inside : 8 * i + 8 ≤ v) :
    byte (x.setWidth v) i = byte x i := by
  apply BitVec.eq_of_getLsbD_eq
  intro j low
  have bit : 8 * i + j < v := by omega
  simp only [getLsbD_byte, BitVec.getLsbD_setWidth, bit, decide_true, Bool.true_and]

theorem byte_ushiftRight (x : BitVec w) (k i : Nat) : byte (x >>> (8 * k)) i = byte x (k + i) := by
  rw [byte, byte, Nat.mul_add, BitVec.shiftRight_add]

theorem byte_shiftLeft_low (x : BitVec w) {k i : Nat} (below : i < k) :
    byte (x <<< (8 * k)) i = 0#8 := by
  apply BitVec.eq_of_getLsbD_eq
  intro j low
  have vacated : 8 * i + j < 8 * k := by omega
  simp only [getLsbD_byte, BitVec.getLsbD_shiftLeft, vacated, decide_true, Bool.not_true,
    Bool.and_false, Bool.false_and]
  exact BitVec.getLsbD_zero.symm

theorem byte_shiftLeft (x : BitVec w) {k i : Nat} (inside : 8 * (k + i) + 8 ≤ w) :
    byte (x <<< (8 * k)) (k + i) = byte x i := by
  apply BitVec.eq_of_getLsbD_eq
  intro j low
  have bit : 8 * (k + i) + j < w := by omega
  have moved : ¬8 * (k + i) + j < 8 * k := by omega
  have position : 8 * (k + i) + j - 8 * k = 8 * i + j := by omega
  simp only [getLsbD_byte, BitVec.getLsbD_shiftLeft, bit, moved, position, decide_true,
    decide_false, Bool.not_false, Bool.true_and]

end Bytes
