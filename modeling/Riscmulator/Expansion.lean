import Riscmulator.Decompress
import Riscmulator.Lib.Rvc
import Mathlib.Tactic.IntervalCases

/-! `rv_decompress` against the RV64C expansion: the words of its encoders, the
immediates it assembles, and the halfwords where the two part. -/

namespace Riscmulator

/-! ### Encoders -/

section Encoders

variable (rs2 rs1 : BitVec 5) (funct3 : BitVec 3) (rd : BitVec 5) (opcode : BitVec 7)

theorem rvEncR_eq (funct7 : BitVec 7) :
    rvEncR (funct7.setWidth 32) (rs2.setWidth 32) (rs1.setWidth 32) (funct3.setWidth 32)
      (rd.setWidth 32) (opcode.setWidth 32) = Rv64.pack funct7 rs2 rs1 funct3 rd opcode := by
  apply BitVec.eq_of_getLsbD_eq
  intro i word
  rw [Rv64.getLsbD_pack]
  simp only [rvEncR, BitVec.getLsbD_or, BitVec.getLsbD_shiftLeft, BitVec.getLsbD_setWidth]
  interval_cases i <;> simp

theorem rvEncI_eq {imm : U32} {value : BitVec 12} (same : imm.setWidth 12 = value) :
    rvEncI imm (rs1.setWidth 32) (funct3.setWidth 32) (rd.setWidth 32) (opcode.setWidth 32) =
      Rv64.encI value rs1 funct3 rd opcode := by
  subst same
  apply BitVec.eq_of_getLsbD_eq
  intro i word
  rw [Rv64.encI, Rv64.getLsbD_pack]
  simp only [rvEncI, BitVec.getLsbD_or, BitVec.getLsbD_shiftLeft, BitVec.getLsbD_setWidth,
    BitVec.getLsbD_and]
  interval_cases i <;> simp

theorem rvEncS_eq {imm : U32} {value : BitVec 12} (same : imm.setWidth 12 = value) :
    rvEncS imm (rs2.setWidth 32) (rs1.setWidth 32) (funct3.setWidth 32) (opcode.setWidth 32) =
      Rv64.encS value rs2 rs1 funct3 opcode := by
  subst same
  apply BitVec.eq_of_getLsbD_eq
  intro i word
  rw [Rv64.encS, Rv64.getLsbD_pack]
  simp only [rvEncS, BitVec.getLsbD_or, BitVec.getLsbD_shiftLeft, BitVec.getLsbD_setWidth,
    BitVec.getLsbD_and, BitVec.getLsbD_sshiftRight]
  interval_cases i <;> simp

theorem rvEncU_eq {imm : U32} {value : BitVec 20} (same : imm.setWidth 20 = value) :
    rvEncU imm (rd.setWidth 32) (opcode.setWidth 32) = Rv64.encU value rd opcode := by
  subst same
  apply BitVec.eq_of_getLsbD_eq
  intro i word
  rw [Rv64.encU, Rv64.getLsbD_pack]
  simp only [rvEncU, BitVec.getLsbD_or, BitVec.getLsbD_shiftLeft, BitVec.getLsbD_setWidth,
    BitVec.getLsbD_and]
  interval_cases i <;> simp

theorem rvEncB_eq {imm : U32} {value : BitVec 13} (same : imm.setWidth 13 = value) :
    rvEncB imm (rs2.setWidth 32) (rs1.setWidth 32) (funct3.setWidth 32) (opcode.setWidth 32) =
      Rv64.encB value rs2 rs1 funct3 opcode := by
  subst same
  apply BitVec.eq_of_getLsbD_eq
  intro i word
  rw [Rv64.encB, Rv64.getLsbD_pack]
  simp only [rvEncB, BitVec.getLsbD_or, BitVec.getLsbD_shiftLeft, BitVec.getLsbD_setWidth,
    BitVec.getLsbD_and, BitVec.getLsbD_sshiftRight, BitVec.getLsbD_append]
  interval_cases i <;> simp

theorem rvEncJ_eq {imm : U32} {value : BitVec 21} (same : imm.setWidth 21 = value) :
    rvEncJ imm (rd.setWidth 32) (opcode.setWidth 32) = Rv64.encJ value rd opcode := by
  subst same
  apply BitVec.eq_of_getLsbD_eq
  intro i word
  rw [Rv64.encJ, Rv64.getLsbD_pack]
  simp only [rvEncJ, BitVec.getLsbD_or, BitVec.getLsbD_shiftLeft, BitVec.getLsbD_setWidth,
    BitVec.getLsbD_and, BitVec.getLsbD_sshiftRight, BitVec.getLsbD_append]
  interval_cases i <;> simp

end Encoders

/-! ### Fields and immediates -/

theorem hwReg_eq (hw : U16) (lo : Nat) : hwBits hw lo 5 0 = (hw.extractLsb' lo 5).setWidth 32 := by
  rw [hwBits, BitVec.shiftLeft_zero]

theorem creg_eq (hw : U16) (lo : Nat) :
    creg (hwBits hw lo 3 0) = (Rvc.shortReg hw lo).setWidth 32 := by
  have short : ∀ index : BitVec 3, creg (index.setWidth 32) = (1#2 ++ index).setWidth 32 := by
    decide
  rw [hwBits, BitVec.shiftLeft_zero]
  exact short _

/-- Both assemble the six-bit immediate from bits 12 and 6:2. -/
theorem hwImm6_eq (hw : U16) : (hwImm6 hw).setWidth 12 = (Rvc.imm6 hw).signExtend 12 := by
  have fields : ∀ (high : BitVec 1) (low : BitVec 5),
      (sextFrom 6 (high.setWidth 32 <<< 5 ||| low.setWidth 32 <<< 0)).setWidth 12 =
        (high ++ low).signExtend 12 := by decide
  exact fields _ _

theorem hwImm6_upper (hw : U16) : (hwImm6 hw).setWidth 20 = (Rvc.imm6 hw).signExtend 20 := by
  have fields : ∀ (high : BitVec 1) (low : BitVec 5),
      (sextFrom 6 (high.setWidth 32 <<< 5 ||| low.setWidth 32 <<< 0)).setWidth 20 =
        (high ++ low).signExtend 20 := by decide
  exact fields _ _

theorem hwImm6_zero (hw : U16) : hwImm6 hw = 0 ↔ Rvc.imm6 hw = 0 := by
  have fields : ∀ (high : BitVec 1) (low : BitVec 5),
      sextFrom 6 (high.setWidth 32 <<< 5 ||| low.setWidth 32 <<< 0) = 0 ↔ high ++ low = 0 := by
    decide
  exact fields _ _

theorem hwShamt_eq (hw : U16) : (hwShamt hw).setWidth 12 = 0x00#6 ++ Rvc.imm6 hw := by
  have fields : ∀ (high : BitVec 1) (low : BitVec 5),
      (high.setWidth 32 <<< 5 ||| low.setWidth 32 <<< 0 : U32).setWidth 12 =
        0x00#6 ++ (high ++ low) := by decide
  exact fields _ _

theorem hwShamt_arith (hw : U16) : (0x400 ||| hwShamt hw).setWidth 12 = 0x10#6 ++ Rvc.imm6 hw := by
  have fields : ∀ (high : BitVec 1) (low : BitVec 5),
      (0x400 ||| (high.setWidth 32 <<< 5 ||| low.setWidth 32 <<< 0) : U32).setWidth 12 =
        0x10#6 ++ (high ++ low) := by decide
  exact fields _ _

theorem hwAddi4spn_eq (hw : U16) :
    hwBits hw 11 2 4 ||| hwBits hw 7 4 6 ||| hwBits hw 6 1 2 ||| hwBits hw 5 1 3 =
      (Rvc.immAddi4spn hw).setWidth 32 := by
  have fields : ∀ (a : BitVec 2) (b : BitVec 4) (c d : BitVec 1),
      (a.setWidth 32 <<< 4 ||| b.setWidth 32 <<< 6 ||| c.setWidth 32 <<< 2 |||
        d.setWidth 32 <<< 3 : U32) = (b ++ a ++ d ++ c ++ 0#2).setWidth 32 := by decide
  exact fields _ _ _ _

/-- The immediate of C.ADDI16SP as the code assembles it. -/
def hwAddi16sp (hw : U16) : U32 :=
  sextFrom 10 (hwBits hw 12 1 9 ||| hwBits hw 6 1 4 ||| hwBits hw 5 1 6 ||| hwBits hw 3 2 7 |||
    hwBits hw 2 1 5)

theorem hwAddi16sp_eq (hw : U16) :
    (hwAddi16sp hw).setWidth 12 = (Rvc.immAddi16sp hw).signExtend 12 := by
  have fields : ∀ (a b c : BitVec 1) (d : BitVec 2) (e : BitVec 1),
      (sextFrom 10 (a.setWidth 32 <<< 9 ||| b.setWidth 32 <<< 4 ||| c.setWidth 32 <<< 6 |||
        d.setWidth 32 <<< 7 ||| e.setWidth 32 <<< 5)).setWidth 12 =
          (a ++ d ++ c ++ e ++ b ++ 0#4).signExtend 12 := by decide
  exact fields _ _ _ _ _

theorem hwAddi16sp_zero (hw : U16) : hwAddi16sp hw = 0 ↔ Rvc.immAddi16sp hw = 0 := by
  have fields : ∀ (a b c : BitVec 1) (d : BitVec 2) (e : BitVec 1),
      sextFrom 10 (a.setWidth 32 <<< 9 ||| b.setWidth 32 <<< 4 ||| c.setWidth 32 <<< 6 |||
        d.setWidth 32 <<< 7 ||| e.setWidth 32 <<< 5) = 0 ↔
          a ++ d ++ c ++ e ++ b ++ 0#4 = 0 := by decide
  exact fields _ _ _ _ _

theorem hwOffsetW_eq (hw : U16) : hwOffsetW hw = (Rvc.offsetWord hw).setWidth 32 := by
  have fields : ∀ (a : BitVec 3) (b c : BitVec 1),
      (a.setWidth 32 <<< 3 ||| b.setWidth 32 <<< 2 ||| c.setWidth 32 <<< 6 : U32) =
        (c ++ a ++ b ++ 0#2).setWidth 32 := by decide
  exact fields _ _ _

theorem hwOffsetD_eq (hw : U16) : hwOffsetD hw = (Rvc.offsetDouble hw).setWidth 32 := by
  have fields : ∀ (a : BitVec 3) (b : BitVec 2),
      (a.setWidth 32 <<< 3 ||| b.setWidth 32 <<< 6 : U32) = (b ++ a ++ 0#3).setWidth 32 := by
    decide
  exact fields _ _

theorem hwLdsp_eq (hw : U16) :
    hwBits hw 12 1 5 ||| hwBits hw 5 2 3 ||| hwBits hw 2 3 6 = (Rvc.offsetLdsp hw).setWidth 32 := by
  have fields : ∀ (a : BitVec 1) (b : BitVec 2) (c : BitVec 3),
      (a.setWidth 32 <<< 5 ||| b.setWidth 32 <<< 3 ||| c.setWidth 32 <<< 6 : U32) =
        (c ++ a ++ b ++ 0#3).setWidth 32 := by decide
  exact fields _ _ _

theorem hwLwsp_eq (hw : U16) :
    hwBits hw 12 1 5 ||| hwBits hw 4 3 2 ||| hwBits hw 2 2 6 = (Rvc.offsetLwsp hw).setWidth 32 := by
  have fields : ∀ (a : BitVec 1) (b : BitVec 3) (c : BitVec 2),
      (a.setWidth 32 <<< 5 ||| b.setWidth 32 <<< 2 ||| c.setWidth 32 <<< 6 : U32) =
        (c ++ a ++ b ++ 0#2).setWidth 32 := by decide
  exact fields _ _ _

theorem hwSdsp_eq (hw : U16) :
    hwBits hw 10 3 3 ||| hwBits hw 7 3 6 = (Rvc.offsetSdsp hw).setWidth 32 := by
  have fields : ∀ a b : BitVec 3,
      (a.setWidth 32 <<< 3 ||| b.setWidth 32 <<< 6 : U32) = (b ++ a ++ 0#3).setWidth 32 := by
    decide
  exact fields _ _

theorem hwSwsp_eq (hw : U16) :
    hwBits hw 9 4 2 ||| hwBits hw 7 2 6 = (Rvc.offsetSwsp hw).setWidth 32 := by
  have fields : ∀ (a : BitVec 4) (b : BitVec 2),
      (a.setWidth 32 <<< 2 ||| b.setWidth 32 <<< 6 : U32) = (b ++ a ++ 0#2).setWidth 32 := by
    decide
  exact fields _ _

theorem hwJumpOffset_eq (hw : U16) :
    (hwJumpOffset hw).setWidth 21 = (Rvc.offsetJump hw).signExtend 21 := by
  have fields : ∀ (a b : BitVec 1) (c : BitVec 2) (d e f : BitVec 1) (g : BitVec 3) (k : BitVec 1),
      (sextFrom 12 (a.setWidth 32 <<< 11 ||| b.setWidth 32 <<< 4 ||| c.setWidth 32 <<< 8 |||
        d.setWidth 32 <<< 10 ||| e.setWidth 32 <<< 6 ||| f.setWidth 32 <<< 7 |||
          g.setWidth 32 <<< 1 ||| k.setWidth 32 <<< 5)).setWidth 21 =
            (a ++ d ++ c ++ f ++ e ++ k ++ b ++ g ++ 0#1).signExtend 21 := by decide +kernel
  exact fields _ _ _ _ _ _ _ _

theorem hwBranchOffset_eq (hw : U16) :
    (hwBranchOffset hw).setWidth 13 = (Rvc.offsetBranch hw).signExtend 13 := by
  have fields : ∀ (a : BitVec 1) (b c d : BitVec 2) (e : BitVec 1),
      (sextFrom 9 (a.setWidth 32 <<< 8 ||| b.setWidth 32 <<< 3 ||| c.setWidth 32 <<< 6 |||
        d.setWidth 32 <<< 1 ||| e.setWidth 32 <<< 5)).setWidth 13 =
          (a ++ c ++ e ++ b ++ d ++ 0#1).signExtend 13 := by decide +kernel
  exact fields _ _ _ _ _

/-! ### Quadrants -/

theorem bitVec3_cases : ∀ field : BitVec 3, field = 0 ∨ field = 1 ∨ field = 2 ∨ field = 3 ∨
    field = 4 ∨ field = 5 ∨ field = 6 ∨ field = 7 := by decide

theorem reg_zero : ∀ reg : BitVec 5, reg.setWidth 32 = (0 : U32) ↔ reg = 0 := by decide

theorem reg_sp : ∀ reg : BitVec 5, reg.setWidth 32 = (2 : U32) ↔ reg = Rvc.sp := by decide

theorem setWidth_offset {n : Nat} (offset : BitVec n) :
    (offset.setWidth 32).setWidth 12 = offset.setWidth 12 :=
  BitVec.setWidth_setWidth (by omega)

theorem decompressQ0_eq (hw : U16) : decompressQ0 hw = (Rvc.expandQ0 hw).map Rvc.encode := by
  have zero : ∀ imm : BitVec 10, imm.setWidth 32 = (0 : U32) ↔ imm = 0 := by decide
  simp only [decompressQ0, Rvc.expandQ0, creg_eq, hwAddi4spn_eq, hwOffsetD_eq, hwOffsetW_eq, zero]
  rcases bitVec3_cases (hw.extractLsb' 13 3) with f | f | f | f | f | f | f | f <;> rw [f]
  · by_cases reserved : Rvc.immAddi4spn hw = 0
    · simp only [if_pos reserved]
      rfl
    · simp only [if_neg reserved]
      exact congrArg some (rvEncI_eq Rvc.sp 0 _ 0b0010011 (setWidth_offset _))
  · exact congrArg some (rvEncI_eq _ 3 _ 0b0000111 (setWidth_offset _))
  · exact congrArg some (rvEncI_eq _ 2 _ 0b0000011 (setWidth_offset _))
  · exact congrArg some (rvEncI_eq _ 3 _ 0b0000011 (setWidth_offset _))
  · rfl
  · exact congrArg some (rvEncS_eq _ _ 3 0b0100111 (setWidth_offset _))
  · exact congrArg some (rvEncS_eq _ _ 2 0b0100011 (setWidth_offset _))
  · exact congrArg some (rvEncS_eq _ _ 3 0b0100011 (setWidth_offset _))

/-- The HINTs that the code rejects: C.SLLI with `rd = x0`, and C.LUI with `rd = x0`
and an immediate other than zero. -/
def RejectedHint (hw : U16) : Prop :=
  Rvc.rd hw = 0 ∧
    ((hw.extractLsb' 0 2 = 2 ∧ hw.extractLsb' 13 3 = 0) ∨
      (hw.extractLsb' 0 2 = 1 ∧ hw.extractLsb' 13 3 = 3 ∧ Rvc.imm6 hw ≠ 0))

theorem decompressLui_eq (hw : U16) (other : ¬(Rvc.rd hw = 0 ∧ Rvc.imm6 hw ≠ 0)) :
    decompressLui hw = (Rvc.expandLui hw).map Rvc.encode := by
  have rd : hwBits hw 7 5 0 = (Rvc.rd hw).setWidth 32 := hwReg_eq hw 7
  simp only [decompressLui, Rvc.expandLui, rd, reg_sp, hwImm6_zero, Ne, reg_zero]
  rw [← hwAddi16sp]
  simp only [hwAddi16sp_zero]
  by_cases stack : Rvc.rd hw = Rvc.sp
  · simp only [if_pos stack]
    split
    · rfl
    · exact congrArg some (rvEncI_eq Rvc.sp 0 Rvc.sp 0b0010011 (hwAddi16sp_eq hw))
  simp only [if_neg stack]
  by_cases zero : Rvc.rd hw = 0
  · have reserved : Rvc.imm6 hw = 0 := by
      by_contra imm
      exact other ⟨zero, imm⟩
    simp only [zero, reserved]
    rfl
  rw [if_pos zero]
  split
  · rfl
  · exact congrArg some (rvEncU_eq _ 0b0110111 (hwImm6_upper hw))

theorem decompressArith_eq (hw : U16) :
    decompressArith hw =
      ((Rvc.arithOp hw).map fun op =>
        Rvc.Instr.reg op (Rvc.shortReg hw 7) (Rvc.shortReg hw 7) (Rvc.shortReg hw 2)).map
          Rvc.encode := by
  have wide : ∀ field : BitVec 1, field = 0 ∨ field = 1 := by decide
  have ops : ∀ field : BitVec 2, field = 0 ∨ field = 1 ∨ field = 2 ∨ field = 3 := by decide
  simp only [decompressArith, Rvc.arithOp, creg_eq]
  rcases wide (hw.extractLsb' 12 1) with w | w <;>
    rcases ops (hw.extractLsb' 5 2) with f | f | f | f <;> rw [w, f]
  · exact congrArg some (rvEncR_eq _ _ 0 _ 0b0110011 0x20)
  · exact congrArg some (rvEncR_eq _ _ 4 _ 0b0110011 0x00)
  · exact congrArg some (rvEncR_eq _ _ 6 _ 0b0110011 0x00)
  · exact congrArg some (rvEncR_eq _ _ 7 _ 0b0110011 0x00)
  · exact congrArg some (rvEncR_eq _ _ 0 _ 0b0111011 0x20)
  · exact congrArg some (rvEncR_eq _ _ 0 _ 0b0111011 0x00)
  · rfl
  · rfl

theorem decompressQ1_eq (hw : U16)
    (other : ¬(hw.extractLsb' 13 3 = 3 ∧ Rvc.rd hw = 0 ∧ Rvc.imm6 hw ≠ 0)) :
    decompressQ1 hw = (Rvc.expandQ1 hw).map Rvc.encode := by
  have rd : hwBits hw 7 5 0 = (Rvc.rd hw).setWidth 32 := hwReg_eq hw 7
  simp only [decompressQ1, Rvc.expandQ1, rd, creg_eq, reg_zero]
  rcases bitVec3_cases (hw.extractLsb' 13 3) with f | f | f | f | f | f | f | f <;>
    rw [f] at other ⊢
  · exact congrArg some (rvEncI_eq _ 0 _ 0b0010011 (hwImm6_eq hw))
  · by_cases reserved : Rvc.rd hw = 0
    · simp only [if_pos reserved]
      rfl
    · simp only [if_neg reserved]
      exact congrArg some (rvEncI_eq _ 0 _ 0b0011011 (hwImm6_eq hw))
  · exact congrArg some (rvEncI_eq 0 0 _ 0b0010011 (hwImm6_eq hw))
  · exact decompressLui_eq hw fun hint => other ⟨rfl, hint⟩
  · have groups : ∀ field : BitVec 2, field = 0 ∨ field = 1 ∨ field = 2 ∨ field = 3 := by decide
    simp only [Rvc.expandArith]
    rcases groups (hw.extractLsb' 10 2) with g | g | g | g <;> rw [g]
    · exact congrArg some (rvEncI_eq _ 5 _ 0b0010011 (hwShamt_eq hw))
    · exact congrArg some (rvEncI_eq _ 5 _ 0b0010011 (hwShamt_arith hw))
    · exact congrArg some (rvEncI_eq _ 7 _ 0b0010011 (hwImm6_eq hw))
    · exact decompressArith_eq hw
  · exact congrArg some (rvEncJ_eq 0 0b1101111 (hwJumpOffset_eq hw))
  · exact congrArg some (rvEncB_eq 0 _ 0 0b1100011 (hwBranchOffset_eq hw))
  · exact congrArg some (rvEncB_eq 0 _ 1 0b1100011 (hwBranchOffset_eq hw))

theorem decompressCr_eq (hw : U16) : decompressCr hw = (Rvc.expandCr hw).map Rvc.encode := by
  have rd : hwBits hw 7 5 0 = (Rvc.rd hw).setWidth 32 := hwReg_eq hw 7
  have rs2 : hwBits hw 2 5 0 = (Rvc.rs2 hw).setWidth 32 := hwReg_eq hw 2
  simp only [decompressCr, Rvc.expandCr, rd, rs2, reg_zero, Ne]
  by_cases clear : hw.extractLsb' 12 1 = 0
  · simp only [if_pos clear]
    by_cases source : Rvc.rs2 hw = 0
    · simp only [source, if_true, not_true, if_false]
      split
      · rfl
      · exact congrArg some (rvEncI_eq _ 0 0 0b1100111 rfl)
    · simp only [source, not_false_eq_true, if_true]
      exact congrArg some (rvEncR_eq _ 0 0 _ 0b0110011 0x00)
  · simp only [if_neg clear]
    by_cases source : Rvc.rs2 hw = 0
    · simp only [source, true_and, not_true, if_false, if_true]
      split
      · rfl
      · exact congrArg some (rvEncI_eq _ 0 Rvc.ra 0b1100111 rfl)
    · simp only [source, false_and, if_false, not_false_eq_true, if_true]
      exact congrArg some (rvEncR_eq _ _ 0 _ 0b0110011 0x00)

theorem decompressQ2_eq (hw : U16) (other : ¬(hw.extractLsb' 13 3 = 0 ∧ Rvc.rd hw = 0)) :
    decompressQ2 hw = (Rvc.expandQ2 hw).map Rvc.encode := by
  have rd : hwBits hw 7 5 0 = (Rvc.rd hw).setWidth 32 := hwReg_eq hw 7
  have rs2 : hwBits hw 2 5 0 = (Rvc.rs2 hw).setWidth 32 := hwReg_eq hw 2
  simp only [decompressQ2, Rvc.expandQ2, rd, rs2, reg_zero, hwLdsp_eq, hwLwsp_eq, hwSdsp_eq,
    hwSwsp_eq]
  rcases bitVec3_cases (hw.extractLsb' 13 3) with f | f | f | f | f | f | f | f <;>
    rw [f] at other ⊢
  · have target : ¬Rvc.rd hw = 0 := fun zero => other ⟨rfl, zero⟩
    simp only [if_neg target]
    exact congrArg some (rvEncI_eq _ 1 _ 0b0010011 (hwShamt_eq hw))
  · exact congrArg some (rvEncI_eq Rvc.sp 3 _ 0b0000111 (setWidth_offset _))
  · by_cases reserved : Rvc.rd hw = 0
    · simp only [if_pos reserved]
      rfl
    · simp only [if_neg reserved]
      exact congrArg some (rvEncI_eq Rvc.sp 2 _ 0b0000011 (setWidth_offset _))
  · by_cases reserved : Rvc.rd hw = 0
    · simp only [if_pos reserved]
      rfl
    · simp only [if_neg reserved]
      exact congrArg some (rvEncI_eq Rvc.sp 3 _ 0b0000011 (setWidth_offset _))
  · exact decompressCr_eq hw
  · exact congrArg some (rvEncS_eq _ Rvc.sp 3 0b0100111 (setWidth_offset _))
  · exact congrArg some (rvEncS_eq _ Rvc.sp 2 0b0100011 (setWidth_offset _))
  · exact congrArg some (rvEncS_eq _ Rvc.sp 3 0b0100011 (setWidth_offset _))

/-- The code rejects two kinds of HINTs and expands everything else as RV64C does. -/
theorem rvDecompress_eq (hw : U16) (other : ¬RejectedHint hw) :
    rvDecompress hw = (Rvc.expand hw).map Rvc.encode := by
  have quadrants : ∀ field : BitVec 2, field = 0 ∨ field = 1 ∨ field = 2 ∨ field = 3 := by decide
  simp only [RejectedHint] at other
  simp only [rvDecompress, Rvc.expand]
  rcases quadrants (hw.extractLsb' 0 2) with q | q | q | q <;> rw [q] at other ⊢
  · exact decompressQ0_eq hw
  · apply decompressQ1_eq hw
    intro hint
    exact other ⟨hint.2.1, Or.inr ⟨rfl, hint.1, hint.2.2⟩⟩
  · apply decompressQ2_eq hw
    intro hint
    exact other ⟨hint.2, Or.inl ⟨rfl, hint.1⟩⟩
  · rfl

/-- A rejected HINT expands to a shift of `x0` or to a LUI to `x0`. -/
theorem RejectedHint.rejected {hw : U16} (hint : RejectedHint hw) :
    rvDecompress hw = none ∧
      (Rvc.expand hw = some (.shift .slli 0 0 (Rvc.imm6 hw)) ∨
        Rvc.expand hw = some (.lui 0 ((Rvc.imm6 hw).signExtend 20))) := by
  have rd : hwBits hw 7 5 0 = (Rvc.rd hw).setWidth 32 := hwReg_eq hw 7
  obtain ⟨zero, ⟨q, f⟩ | ⟨q, f, imm⟩⟩ := hint
  · simp only [rvDecompress, Rvc.expand, q, decompressQ2, Rvc.expandQ2, f, rd, zero]
    exact ⟨rfl, Or.inl rfl⟩
  · simp only [rvDecompress, Rvc.expand, q, decompressQ1, Rvc.expandQ1, f, decompressLui,
      Rvc.expandLui, rd, zero, if_neg imm]
    exact ⟨rfl, Or.inr rfl⟩

end Riscmulator
