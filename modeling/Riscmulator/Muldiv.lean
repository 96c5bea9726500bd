import Riscmulator.Base
import Riscmulator.Lib.Rvm

/-! `rv_muldiv_op` against the M extension, and the divisions that it leaves to the
host. -/

namespace Riscmulator

variable {δ : Type}

/-! ### The value that is written -/

/-- The value the ISA assigns to a word; `none` for the missing word forms. -/
def muldivValue (insn : U32) (rs1 rs2 : U64) : Option U64 :=
  let op := Rvm.Op.ofFunct3 (rvInsnFunct3 insn)
  if rvInsnOpMaj insn = 0b01110 then
    if op.hasWord then some (op.evalWord rs1 rs2) else none
  else some (op.eval rs1 rs2)

theorem div_guarded (x y : U64) :
    (if y = 0 then BitVec.allOnes 64
      else if y = BitVec.allOnes 64 ∧ x = 0x8000000000000000 then x
      else x.sdiv y) = Rvm.Op.div.eval x y := by
  rw [Rvm.Op.eval, ← Words.sdiv_eq_ofInt]
  split
  · rfl
  split
  · next overflow =>
    rw [overflow.1, overflow.2]
    rfl
  · rfl

theorem rem_guarded (x y : U64) :
    (if y = 0 then x
      else if y = BitVec.allOnes 64 ∧ x = 0x8000000000000000 then 0
      else x.srem y) = Rvm.Op.rem.eval x y := by
  rw [Rvm.Op.eval, ← Words.srem_eq_ofInt]
  split
  · next zero =>
    rw [zero]
    exact BitVec.srem_zero.symm
  split
  · next overflow =>
    rw [overflow.1, overflow.2]
    rfl
  · rfl

theorem divu_guarded (x y : U64) :
    (if y = 0 then BitVec.allOnes 64 else x / y) = Rvm.Op.divu.eval x y := by
  rw [Words.udiv_eq_ofInt]
  rfl

theorem remu_guarded (x y : U64) : (if y = 0 then x else x % y) = Rvm.Op.remu.eval x y := by
  have value : x % y = Rvm.Op.remu.eval x y := Words.umod_eq_ofInt x y
  split
  · next zero =>
    rw [← value, zero]
    exact BitVec.umod_zero.symm
  · exact value

theorem funct3_cases (funct3 : BitVec 3) :
    funct3 = 0 ∨ funct3 = 1 ∨ funct3 = 2 ∨ funct3 = 3 ∨ funct3 = 4 ∨ funct3 = 5 ∨ funct3 = 6 ∨
      funct3 = 7 := by
  revert funct3
  decide

theorem rvMuldivResult_op {insn : U32} (op : rvInsnOpMaj insn = 0b01100) (rs1 rs2 : U64) :
    rvMuldivResult insn rs1 rs2 =
      some ((Rvm.Op.ofFunct3 (rvInsnFunct3 insn)).eval rs1 rs2) := by
  have wide : (rvInsnOpMaj insn).getLsbD 1 = false := by
    rw [op]
    rfl
  rw [rvMuldivResult, wide]
  simp only [Bool.false_eq_true, false_and, if_false]
  congr 1
  rcases funct3_cases (rvInsnFunct3 insn) with f | f | f | f | f | f | f | f <;> rw [f]
  · exact (Rvm.mul_eq_mul rs1 rs2).symm
  · exact Rvm.mulh_eq rs1 rs2
  · exact Rvm.mulhsu_eq rs1 rs2
  · exact Rvm.mulhu_eq rs1 rs2
  · exact div_guarded rs1 rs2
  · exact divu_guarded rs1 rs2
  · exact rem_guarded rs1 rs2
  · exact remu_guarded rs1 rs2

/-! ### Word forms -/

section Word

variable (x y : BitVec 32)

theorem mulw_word : sext32 (x.signExtend 64 * y.signExtend 64) =
    (Rvm.Op.mul.eval x y).signExtend 64 := by
  rw [sext32, BitVec.setWidth_mul _ _ (by decide), Rvm.mul_eq_mul,
    Words.setWidth_signExtend x (by decide), Words.setWidth_signExtend y (by decide)]

theorem divw_guarded :
    sext32 (if y.signExtend 64 = 0 then BitVec.allOnes 64
      else if y.signExtend 64 = BitVec.allOnes 64 ∧ x.signExtend 64 = sext32 0x80000000 then
        x.signExtend 64
      else (x.signExtend 64).sdiv (y.signExtend 64)) = (Rvm.Op.div.eval x y).signExtend 64 := by
  rw [Rvm.Op.eval, ← Words.sdiv_eq_ofInt,
    ← Words.setWidth_sdiv_signExtend x y (by decide : 32 ≤ 64)]
  simp only [Words.signExtend_eq_zero_iff y (by decide : 32 ≤ 64)]
  split
  · rfl
  split
  · next overflow =>
    rw [overflow.1, overflow.2]
    rfl
  · rfl

theorem remw_guarded :
    sext32 (if y.signExtend 64 = 0 then x.signExtend 64
      else if y.signExtend 64 = BitVec.allOnes 64 ∧ x.signExtend 64 = sext32 0x80000000 then 0
      else (x.signExtend 64).srem (y.signExtend 64)) = (Rvm.Op.rem.eval x y).signExtend 64 := by
  rw [Rvm.Op.eval, ← Words.srem_eq_ofInt,
    ← Words.setWidth_srem_signExtend x y (by decide : 32 ≤ 64)]
  split
  · next zero =>
    have kept : (x.signExtend 64).srem 0 = x.signExtend 64 := BitVec.srem_zero
    rw [zero, kept]
    rfl
  split
  · next overflow =>
    rw [overflow.1, overflow.2]
    rfl
  · rfl

theorem divuw_guarded :
    sext32 (if y.setWidth 64 = 0 then 0xFFFFFFFF else x.setWidth 64 / y.setWidth 64) =
      (Rvm.Op.divu.eval x y).signExtend 64 := by
  have value : Rvm.Op.divu.eval x y = if y = 0 then BitVec.allOnes 32 else x / y := by
    rw [Words.udiv_eq_ofInt]
    rfl
  rw [value, ← Words.setWidth_udiv_setWidth x y (by decide : 32 ≤ 64)]
  simp only [Words.setWidth_eq_zero_iff y (by decide : 32 ≤ 64)]
  split <;> rfl

theorem remuw_guarded :
    sext32 (if y.setWidth 64 = 0 then x.setWidth 64 else x.setWidth 64 % y.setWidth 64) =
      (Rvm.Op.remu.eval x y).signExtend 64 := by
  have value : x % y = Rvm.Op.remu.eval x y := Words.umod_eq_ofInt x y
  rw [← value, ← Words.setWidth_umod_setWidth x y (by decide : 32 ≤ 64)]
  split
  · next zero =>
    have kept : x.setWidth 64 % 0 = x.setWidth 64 := BitVec.umod_zero
    rw [zero, kept]
    rfl
  · rfl

end Word

theorem rvMuldivResult_op32 {insn : U32} (op32 : rvInsnOpMaj insn = 0b01110) (rs1 rs2 : U64) :
    rvMuldivResult insn rs1 rs2 =
      if (Rvm.Op.ofFunct3 (rvInsnFunct3 insn)).hasWord then
        some ((Rvm.Op.ofFunct3 (rvInsnFunct3 insn)).evalWord rs1 rs2)
      else none := by
  have word : (rvInsnOpMaj insn).getLsbD 1 = true := by
    rw [op32]
    rfl
  rw [rvMuldivResult, word]
  simp only [true_and, if_true]
  rcases funct3_cases (rvInsnFunct3 insn) with f | f | f | f | f | f | f | f <;> rw [f]
  · exact congrArg some (mulw_word _ _)
  · rfl
  · rfl
  · rfl
  · exact congrArg some (divw_guarded _ _)
  · exact congrArg some (divuw_guarded _ _)
  · exact congrArg some (remw_guarded _ _)
  · exact congrArg some (remuw_guarded _ _)

/-! ### Divisions of the host -/

/-- `x / y` on `int64_t`, undefined for a zero divisor and on overflow. -/
def hostSdiv (x y : U64) : Option U64 :=
  if y = 0 ∨ (x = 0x8000000000000000 ∧ y = BitVec.allOnes 64) then none else some (x.sdiv y)

def hostSrem (x y : U64) : Option U64 :=
  if y = 0 ∨ (x = 0x8000000000000000 ∧ y = BitVec.allOnes 64) then none else some (x.srem y)

/-- `x / y` on `uint64_t`, undefined for a zero divisor. -/
def hostUdiv (x y : U64) : Option U64 := if y = 0 then none else some (x / y)

def hostUrem (x y : U64) : Option U64 := if y = 0 then none else some (x % y)

/-- `rv_muldiv_op` on a host that may leave divisions undefined: the outer `none` is an
undefined division, the inner one the missing `MULH*W`. -/
def rvMuldivHost (insn : U32) (rs1 rs2 : U64) : Option (Option U64) :=
  let is32 := (rvInsnOpMaj insn).getLsbD 1
  let funct3 := rvInsnFunct3 insn
  if is32 ∧ 1 ≤ funct3 ∧ funct3 ≤ 3 then some none
  else
    let rs1S := if is32 then sext32 rs1 else rs1
    let rs2S := if is32 then sext32 rs2 else rs2
    let rs1 := if is32 then zext32 rs1 else rs1
    let rs2 := if is32 then zext32 rs2 else rs2
    let res : Option U64 :=
      match funct3 with
      | 0 => some (rs1S * rs2S)
      | 1 => some (((rs1S.signExtend 128 * rs2S.signExtend 128) >>> 64).setWidth 64)
      | 2 => some (((rs1S.signExtend 128 * rs2.setWidth 128) >>> 64).setWidth 64)
      | 3 => some (((rs1.setWidth 128 * rs2.setWidth 128) >>> 64).setWidth 64)
      | 4 =>
          if rs2S = 0 then some (BitVec.allOnes 64)
          else if !is32 ∧ rs1S = 0x8000000000000000 ∧ rs2S = BitVec.allOnes 64 then
            some 0x8000000000000000
          else if is32 ∧ rs1S = sext32 0x80000000 ∧ rs2S = BitVec.allOnes 64 then
            some (sext32 0x80000000)
          else hostSdiv rs1S rs2S
      | 5 =>
          if rs2 = 0 then some (if is32 then 0xFFFFFFFF else BitVec.allOnes 64)
          else hostUdiv rs1 rs2
      | 6 =>
          if rs2S = 0 then some rs1S
          else if !is32 ∧ rs1S = 0x8000000000000000 ∧ rs2S = BitVec.allOnes 64 then some 0
          else if is32 ∧ rs1S = sext32 0x80000000 ∧ rs2S = BitVec.allOnes 64 then some 0
          else hostSrem rs1S rs2S
      | _ => if rs2 = 0 then some rs1 else hostUrem rs1 rs2
    res.map fun res => some (if is32 then sext32 res else res)

theorem hostSigned_defined {x y : U64} (nonzero : y ≠ 0)
    (inRange : ¬(x = 0x8000000000000000 ∧ y = BitVec.allOnes 64)) (value : U64) :
    (if y = 0 ∨ (x = 0x8000000000000000 ∧ y = BitVec.allOnes 64) then none else some value) =
      some value := by
  rw [if_neg]
  rintro (zero | overflow)
  · exact nonzero zero
  · exact inRange overflow

theorem hostSdiv_defined {x y : U64} (nonzero : y ≠ 0)
    (inRange : ¬(x = 0x8000000000000000 ∧ y = BitVec.allOnes 64)) :
    hostSdiv x y = some (x.sdiv y) := hostSigned_defined nonzero inRange (x.sdiv y)

theorem hostSrem_defined {x y : U64} (nonzero : y ≠ 0)
    (inRange : ¬(x = 0x8000000000000000 ∧ y = BitVec.allOnes 64)) :
    hostSrem x y = some (x.srem y) := hostSigned_defined nonzero inRange (x.srem y)

/-- A sign-extended word is above the least 64-bit value. -/
theorem sext32_ne_least (x : U64) : sext32 x ≠ 0x8000000000000000 := by
  intro least
  have again : sext32 (sext32 x) = sext32 x := by
    rw [sext32, sext32, Words.setWidth_signExtend _ (by decide)]
  rw [least] at again
  revert again
  decide

/-- The two tests for overflow leave the host only divisions that are defined. -/
theorem guarded_defined {host : U64 → U64 → Option U64} {op : U64 → U64 → U64}
    (defined : ∀ {x y : U64}, y ≠ 0 → ¬(x = 0x8000000000000000 ∧ y = BitVec.allOnes 64) →
      host x y = some (op x y))
    {is32 : Bool} {x y : U64} (word : is32 = true → x ≠ 0x8000000000000000)
    (byZero : U64) (overflowed : U64 → U64) :
    (if y = 0 then some byZero
      else if !is32 ∧ x = 0x8000000000000000 ∧ y = BitVec.allOnes 64 then
        some (overflowed 0x8000000000000000)
      else if is32 ∧ x = sext32 0x80000000 ∧ y = BitVec.allOnes 64 then
        some (overflowed (sext32 0x80000000))
      else host x y) =
    some (if y = 0 then byZero
      else if y = BitVec.allOnes 64 ∧
          x = (if is32 then sext32 0x80000000 else 0x8000000000000000) then overflowed x
      else op x y) := by
  by_cases zero : y = 0
  · rw [if_pos zero, if_pos zero]
  rw [if_neg zero, if_neg zero]
  cases is32 with
  | false =>
      simp only [Bool.not_false, true_and, Bool.false_eq_true, false_and, if_false]
      by_cases overflow : x = 0x8000000000000000 ∧ y = BitVec.allOnes 64
      · rw [if_pos overflow, if_pos overflow.symm, overflow.1]
      · rw [if_neg overflow, if_neg (fun both => overflow both.symm), defined zero overflow]
  | true =>
      simp only [Bool.not_true, Bool.false_eq_true, false_and, if_false, true_and, if_true]
      by_cases overflow : x = sext32 0x80000000 ∧ y = BitVec.allOnes 64
      · rw [if_pos overflow, if_pos overflow.symm, overflow.1]
      · have inRange : ¬(x = 0x8000000000000000 ∧ y = BitVec.allOnes 64) :=
          fun both => word rfl both.1
        rw [if_neg overflow, if_neg (fun both => overflow both.symm), defined zero inRange]

theorem hostUdiv_defined {x y : U64} (byZero : U64) :
    (if y = 0 then some byZero else hostUdiv x y) = some (if y = 0 then byZero else x / y) := by
  rw [hostUdiv]
  split <;> rfl

theorem hostUrem_defined {x y : U64} (byZero : U64) :
    (if y = 0 then some byZero else hostUrem x y) = some (if y = 0 then byZero else x % y) := by
  rw [hostUrem]
  split <;> rfl

/-- Every division that `rv_muldiv_op` leaves to the host is defined. -/
theorem rvMuldivHost_eq (insn : U32) (rs1 rs2 : U64) :
    rvMuldivHost insn rs1 rs2 = some (rvMuldivResult insn rs1 rs2) := by
  rw [rvMuldivHost, rvMuldivResult]
  generalize (rvInsnOpMaj insn).getLsbD 1 = is32
  have word : is32 = true →
      (if is32 = true then sext32 rs1 else rs1) ≠ (0x8000000000000000 : U64) := by
    intro narrow
    rw [if_pos narrow]
    exact sext32_ne_least rs1
  split
  · rfl
  rcases funct3_cases (rvInsnFunct3 insn) with f | f | f | f | f | f | f | f <;> rw [f]
  · rfl
  · rfl
  · rfl
  · rfl
  · exact congrArg (Option.map _) (guarded_defined hostSdiv_defined word _ id)
  · exact congrArg (Option.map _) (hostUdiv_defined _)
  · exact congrArg (Option.map _) (guarded_defined hostSrem_defined word _ fun _ => 0)
  · exact congrArg (Option.map _) (hostUrem_defined _)

/-! ### The instruction -/

/-- The words of OP and OP-32 that `rv_base_op` hands to `rv_muldiv_op`. -/
structure MuldivWord (insn : U32) : Prop where
  opMaj : rvInsnOpMaj insn = 0b01100 ∨ rvInsnOpMaj insn = 0b01110
  funct7 : rvInsnFunct7 insn = 1

theorem rvMuldivResult_eq {insn : U32} (word : MuldivWord insn) (rs1 rs2 : U64) :
    rvMuldivResult insn rs1 rs2 = muldivValue insn rs1 rs2 := by
  rw [muldivValue]
  rcases word.opMaj with op | op32
  · rw [rvMuldivResult_op op, op, if_neg (by decide)]
  · rw [rvMuldivResult_op32 op32, op32, if_pos rfl]

theorem rvBaseOp_muldiv (mc : EmuConfig δ) (m : EmuMachine δ) (h : Nat) {insn : U32}
    (word : MuldivWord insn) : rvBaseOp mc m h insn = rvMuldivOp mc m h insn := by
  have register : (rvInsnOpMaj insn).getLsbD 3 = true := by
    rcases word.opMaj with op | op
    · rw [op]
      rfl
    · rw [op]
      rfl
  rw [rvBaseOp, if_pos ⟨register, word.funct7⟩]

/-- `rv_muldiv_op` writes the result of the ISA, whose laws hold at both widths, and
executes no undefined division. -/
theorem rvMuldivOp_isa (mc : EmuConfig δ) (m : EmuMachine δ) (h : Nat) (insn : U32)
    (word : MuldivWord insn) :
    let rs1 := m.xreg h (rvInsnRs1 insn)
    let rs2 := m.xreg h (rvInsnRs2 insn)
    rvBaseOp mc m h insn = rvMuldivOp mc m h insn ∧
    rvMuldivOp mc m h insn =
      (muldivValue insn rs1 rs2).elim (rvDoIillegal mc m h insn)
        (m.writeXreg h (rvInsnRd insn)) ∧
    Rvm.Laws rs1 rs2 ∧ Rvm.Laws (rs1.setWidth 32) (rs2.setWidth 32) ∧
    rvMuldivHost insn rs1 rs2 = some (rvMuldivResult insn rs1 rs2) := by
  intro rs1 rs2
  have written : rvMuldivOp mc m h insn =
      (muldivValue insn rs1 rs2).elim (rvDoIillegal mc m h insn)
        (m.writeXreg h (rvInsnRd insn)) := by
    rw [rvMuldivOp, rvMuldivResult_eq word]
    cases muldivValue insn (m.xreg h (rvInsnRs1 insn)) (m.xreg h (rvInsnRs2 insn)) <;> rfl
  exact ⟨rvBaseOp_muldiv mc m h word, written, Rvm.laws _ _, Rvm.laws _ _, rvMuldivHost_eq _ _ _⟩

/-- A machine at reset with two integer registers set. -/
def registersMachine (x1 x2 : U64) : EmuMachine Unit :=
  ((emuMachineInit ()).writeXreg 0 1 x1).writeXreg 0 2 x2

/-- `divw x3, x1, x2` on the least word and `-1`. -/
theorem rvMuldivOp_isa_divw :
    rvMuldivOp (EmuConfig.ramOnly 0 0x1000 1)
        (registersMachine 0x80000000 (BitVec.allOnes 64)) 0 0x0220c1bb =
      (registersMachine 0x80000000 (BitVec.allOnes 64)).writeXreg 0 3 0xFFFFFFFF80000000 := by
  have isa := rvMuldivOp_isa (EmuConfig.ramOnly 0 0x1000 1)
    (registersMachine 0x80000000 (BitVec.allOnes 64)) 0 0x0220c1bb ⟨by decide, by decide⟩
  have value : muldivValue 0x0220c1bb
      ((registersMachine 0x80000000 (BitVec.allOnes 64)).xreg 0 (rvInsnRs1 0x0220c1bb))
      ((registersMachine 0x80000000 (BitVec.allOnes 64)).xreg 0 (rvInsnRs2 0x0220c1bb)) =
      some 0xFFFFFFFF80000000 := by decide +kernel
  rw [isa.2.1, value]
  rfl

end Riscmulator
