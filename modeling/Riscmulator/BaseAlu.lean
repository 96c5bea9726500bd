import Riscmulator.Compressed
import Riscmulator.Lib.Alu
import Riscmulator.Lib.Words

/-! `rv_base_op` against the integer instructions of RV64I. -/

namespace Riscmulator

variable {δ : Type}

/-! ### Values -/

section Values

variable (x y : U64)

theorem shamt_mask : (y &&& 0x3f).toNat = y.toNat % 64 := by
  rw [BitVec.toNat_and]
  exact Nat.and_two_pow_sub_one_eq_mod _ 6

theorem toNat_zext32 : (zext32 y).toNat = (y.setWidth 32).toNat :=
  BitVec.toNat_setWidth_of_le (by decide)

theorem shamt_maskW : (zext32 y &&& 0x1f).toNat = (y.setWidth 32).toNat % 32 := by
  rw [BitVec.toNat_and, toNat_zext32]
  exact Nat.and_two_pow_sub_one_eq_mod _ 5

/-- The `funct3` of an operation. -/
def aluFunct3 : Rv64.AluOp → BitVec 3
  | .add | .sub => 0
  | .sll => 1
  | .slt => 2
  | .sltu => 3
  | .xor => 4
  | .srl | .sra => 5
  | .or => 6
  | .and => 7

/-- The bits that tell an operation from the other one with its `funct3`. -/
def aluSelects (isReg alternate : Bool) : Rv64.AluOp → Bool
  | .add => !(alternate && isReg)
  | .sub => alternate && isReg
  | .srl => !alternate
  | .sra => alternate
  | _ => true

theorem aluSelects_add {isReg alternate : Bool} (selects : aluSelects isReg alternate .add = true) :
    (alternate && isReg) = false := by
  rw [aluSelects, Bool.not_eq_true'] at selects
  exact selects

theorem aluSelects_srl {isReg alternate : Bool} (selects : aluSelects isReg alternate .srl = true) :
    alternate = false := by
  rw [aluSelects, Bool.not_eq_true'] at selects
  exact selects

theorem baseOpValue_wide {isReg alternate : Bool} {op : Rv64.AluOp}
    (selects : aluSelects isReg alternate op = true) :
    baseOpValue isReg false alternate (aluFunct3 op) x y = op.eval x y := by
  cases op with
  | add =>
      have plain := aluSelects_add selects
      simp [baseOpValue, aluFunct3, plain, Rv64.AluOp.eval]
  | sub =>
      have negative : (alternate && isReg) = true := selects
      simp [baseOpValue, aluFunct3, negative, Rv64.AluOp.eval]
  | sll =>
      rw [Rv64.AluOp.eval, Words.ofNat_mul_two_pow, ← shamt_mask]
      rfl
  | slt =>
      simp [baseOpValue, aluFunct3, Rv64.AluOp.eval, BitVec.slt_eq_decide]
  | sltu =>
      rfl
  | xor | or | and => rfl
  | srl =>
      have logical := aluSelects_srl selects
      rw [Rv64.AluOp.eval, Words.ofNat_div_two_pow, ← shamt_mask, logical]
      rfl
  | sra =>
      have arithmetic : alternate = true := selects
      rw [Rv64.AluOp.eval, Words.ofInt_div_two_pow, ← shamt_mask, arithmetic]
      rfl

theorem setWidth_sub : (x - y).setWidth 32 = x.setWidth 32 - y.setWidth 32 := by
  apply BitVec.eq_of_toNat_eq
  simp only [BitVec.toNat_setWidth, BitVec.toNat_sub]
  omega

theorem baseOpValue_word {isReg alternate : Bool} {op : Rv64.AluOp}
    (selects : aluSelects isReg alternate op = true) :
    baseOpValue isReg true alternate (aluFunct3 op) x y =
      (op.eval (x.setWidth 32) (y.setWidth 32)).signExtend 64 := by
  cases op with
  | add =>
      have plain := aluSelects_add selects
      have sum := sext32_add x y
      rw [Rvc.signWord, BitVec.setWidth_add _ _ (by decide)] at sum
      calc
        _ = sext32 (zext32 x + zext32 y) := by simp [baseOpValue, aluFunct3, plain]
        _ = _ := sum
  | sub =>
      have negative : (alternate && isReg) = true := selects
      have difference := sext32_sub x y
      rw [Rvc.signWord, setWidth_sub x y] at difference
      calc
        _ = sext32 (zext32 x - zext32 y) := by simp [baseOpValue, aluFunct3, negative]
        _ = _ := difference
  | sll =>
      rw [Rv64.AluOp.eval, Words.ofNat_mul_two_pow, ← shamt_maskW,
        ← Words.setWidth_shiftLeft_setWidth _ (by decide : 32 ≤ 64)]
      rfl
  | slt =>
      have signed : (sext32 x).slt (sext32 y) =
          decide ((x.setWidth 32).toInt < (y.setWidth 32).toInt) := by
        rw [BitVec.slt_eq_decide, sext32, sext32, BitVec.toInt_signExtend_of_le (by decide),
          BitVec.toInt_signExtend_of_le (by decide)]
      calc
        _ = sext32 (if (sext32 x).slt (sext32 y) then 1 else 0) := rfl
        _ = _ := by
          simp only [signed, decide_eq_true_eq, Rv64.AluOp.eval]
          split <;> rfl
  | sltu =>
      have unsigned : zext32 x < zext32 y ↔ (x.setWidth 32).toNat < (y.setWidth 32).toNat := by
        rw [BitVec.lt_def, toNat_zext32, toNat_zext32]
      calc
        _ = sext32 (if zext32 x < zext32 y then 1 else 0) := rfl
        _ = _ := by
          simp only [unsigned, Rv64.AluOp.eval]
          split <;> rfl
  | xor | or | and =>
      simp [baseOpValue, aluFunct3, sext32, zext32, Rv64.AluOp.eval]
  | srl =>
      have logical := aluSelects_srl selects
      rw [Rv64.AluOp.eval, Words.ofNat_div_two_pow, ← shamt_maskW, logical,
        ← Words.setWidth_ushiftRight_setWidth _ (by decide : 32 ≤ 64)]
      rfl
  | sra =>
      have arithmetic : alternate = true := selects
      rw [Rv64.AluOp.eval, Words.ofInt_div_two_pow, ← shamt_maskW, arithmetic,
        ← Words.setWidth_sshiftRight_signExtend _ (by decide : 32 ≤ 64)]
      rfl

end Values

/-! ### Encodings -/

section Encodings

variable (insn : U32)

theorem rvInsnImm12_eq : rvInsnImm12 insn = (Rv64.imm12 insn).signExtend 64 := by
  have top : insn.sshiftRight 20 = (Rv64.imm12 insn).signExtend 32 := by
    apply BitVec.eq_of_getLsbD_eq
    intro i word
    rw [BitVec.getLsbD_sshiftRight, BitVec.getLsbD_signExtend, BitVec.msb_eq_getLsbD_last,
      BitVec.msb_eq_getLsbD_last, Rv64.imm12, BitVec.getLsbD_extractLsb',
      BitVec.getLsbD_extractLsb']
    interval_cases i <;> simp
  rw [rvInsnImm12, top, BitField.signExtend_signExtend _ (by decide) (by decide)]

/-- The low bits of the immediate are the shift amount. -/
theorem shamt_imm12 : (rvInsnImm12 insn).toNat % 64 = (insn.extractLsb' 20 6).toNat := by
  have parts : Rv64.imm12 insn = Rv64.funct6 insn ++ insn.extractLsb' 20 6 := by
    apply BitVec.eq_of_getLsbD_eq
    intro i low
    simp only [Rv64.imm12, Rv64.funct6, BitVec.getLsbD_append, BitVec.getLsbD_extractLsb']
    interval_cases i <;> simp
  rw [rvInsnImm12_eq, parts, ← Nat.and_two_pow_sub_one_eq_mod _ 6]
  exact shamt_append (Rv64.funct6 insn) (insn.extractLsb' 20 6)

theorem shamt_rs2 : ((rvInsnImm12 insn).setWidth 32).toNat % 32 = (Rv64.rs2 insn).toNat := by
  have amount := shamt_imm12 insn
  rw [BitVec.extractLsb'_toNat] at amount
  rw [Rv64.rs2, BitVec.extractLsb'_toNat, BitVec.toNat_setWidth]
  omega

theorem alternate_funct7 : insn.getLsbD 30 = (Rv64.funct7 insn).getLsbD 5 := by
  rw [Rv64.funct7, BitVec.getLsbD_extractLsb']
  rfl

theorem alternate_funct6 : insn.getLsbD 30 = (Rv64.funct6 insn).getLsbD 4 := by
  rw [Rv64.funct6, BitVec.getLsbD_extractLsb']
  rfl

theorem rvBaseOpResult_alu {op : Rv64.AluOp} (rs1 rs2 : U64)
    (funct3 : rvInsnFunct3 insn = aluFunct3 op)
    (selects : aluSelects ((rvInsnOpMaj insn).getLsbD 3) (insn.getLsbD 30) op = true) :
    rvBaseOpResult insn rs1 rs2 =
      let rhs := if (rvInsnOpMaj insn).getLsbD 3 then rs2 else rvInsnImm12 insn
      if (rvInsnOpMaj insn).getLsbD 1 then
        (op.eval (rs1.setWidth 32) (rhs.setWidth 32)).signExtend 64
      else op.eval rs1 rhs := by
  rw [rvBaseOpResult_eq, funct3]
  cases (rvInsnOpMaj insn).getLsbD 1 with
  | true => exact baseOpValue_word _ _ selects
  | false => exact baseOpValue_wide _ _ selects

end Encodings

/-! ### Instructions -/

/-- The entries of a table of the ISA select what the code executes. -/
theorem opTable_selects : ∀ entry ∈ Rv64.opTable ++ Rv64.opWTable,
    entry.1.2 = aluFunct3 entry.2 ∧ aluSelects true (entry.1.1.getLsbD 5) entry.2 = true ∧
      entry.1.1 ≠ 1 := by decide

theorem immTable_selects : ∀ entry ∈ Rv64.immTable, entry.1 = aluFunct3 entry.2 ∧
    ∀ alternate, aluSelects false alternate entry.2 = true := by decide

theorem shiftTable_selects : ∀ entry ∈ Rv64.shiftTable, entry.1.2 = aluFunct3 entry.2 ∧
    aluSelects false (entry.1.1.getLsbD 4) entry.2 = true ∧
      (entry.2 = .sll ∨ entry.2 = .srl ∨ entry.2 = .sra) := by decide

theorem shiftWTable_selects : ∀ entry ∈ Rv64.shiftWTable, entry.1.2 = aluFunct3 entry.2 ∧
    aluSelects false (entry.1.1.getLsbD 5) entry.2 = true ∧
      (entry.2 = .sll ∨ entry.2 = .srl ∨ entry.2 = .sra) := by decide

section Instructions

variable {mc : EmuConfig δ} {m : EmuMachine δ} {h : Nat} {insn : U32} {i : Rv64.AluInstr}

theorem rvBaseOpResult_aluForm (form : Rv64.AluForm insn i) :
    rvBaseOpResult insn (m.xreg h (rvInsnRs1 insn)) (m.xreg h (rvInsnRs2 insn)) =
      i.eval (m.xreg h) := by
  cases form with
  | op major entry =>
      rcases opTable_selects _ (List.mem_append_left _ entry) with ⟨funct3, selects, _⟩
      have register : (rvInsnOpMaj insn).getLsbD 3 = true := opMaj_bit major 3
      have wide : (rvInsnOpMaj insn).getLsbD 1 = false := opMaj_bit major 1
      rw [rvBaseOpResult_alu insn _ _ funct3 (by rwa [register, alternate_funct7]), register, wide]
      rfl
  | op32 major entry =>
      rcases opTable_selects _ (List.mem_append_right _ entry) with ⟨funct3, selects, _⟩
      have register : (rvInsnOpMaj insn).getLsbD 3 = true := opMaj_bit major 3
      have word : (rvInsnOpMaj insn).getLsbD 1 = true := opMaj_bit major 1
      rw [rvBaseOpResult_alu insn _ _ funct3 (by rwa [register, alternate_funct7]), register, word]
      rfl
  | imm major entry =>
      rcases immTable_selects _ entry with ⟨funct3, selects⟩
      have immediate : (rvInsnOpMaj insn).getLsbD 3 = false := opMaj_bit major 3
      have wide : (rvInsnOpMaj insn).getLsbD 1 = false := opMaj_bit major 1
      rw [rvBaseOpResult_alu insn _ _ funct3 (by rw [immediate]; exact selects _), immediate, wide,
        rvInsnImm12_eq]
      rfl
  | shift major entry =>
      rcases shiftTable_selects _ entry with ⟨funct3, selects, shift⟩
      have immediate : (rvInsnOpMaj insn).getLsbD 3 = false := opMaj_bit major 3
      have wide : (rvInsnOpMaj insn).getLsbD 1 = false := opMaj_bit major 1
      have amount : (rvInsnImm12 insn).toNat % 64 =
          ((insn.extractLsb' 20 6).setWidth 64).toNat % 64 := by
        rw [shamt_imm12, BitVec.toNat_setWidth_of_le (by decide),
          Nat.mod_eq_of_lt (insn.extractLsb' 20 6).isLt]
      rw [rvBaseOpResult_alu insn _ _ funct3 (by rwa [immediate, alternate_funct6]), immediate,
        wide]
      exact Rv64.AluOp.eval_shift _ shift amount
  | addiw major entry =>
      have immediate : (rvInsnOpMaj insn).getLsbD 3 = false := opMaj_bit major 3
      have word : (rvInsnOpMaj insn).getLsbD 1 = true := opMaj_bit major 1
      have selects : aluSelects ((rvInsnOpMaj insn).getLsbD 3) (insn.getLsbD 30) .add = true := by
        rw [immediate, aluSelects, Bool.and_false]
        rfl
      have funct3 : rvInsnFunct3 insn = aluFunct3 .add := entry
      rw [rvBaseOpResult_alu insn _ _ funct3 selects, immediate, word, rvInsnImm12_eq]
      rfl
  | shiftW major entry =>
      rcases shiftWTable_selects _ entry with ⟨funct3, selects, shift⟩
      have immediate : (rvInsnOpMaj insn).getLsbD 3 = false := opMaj_bit major 3
      have word : (rvInsnOpMaj insn).getLsbD 1 = true := opMaj_bit major 1
      have amount : ((rvInsnImm12 insn).setWidth 32).toNat % 32 =
          ((((Rv64.rs2 insn).setWidth 6).setWidth 64 : U64).setWidth 32).toNat % 32 := by
        rw [shamt_rs2, BitVec.toNat_setWidth, BitVec.toNat_setWidth, BitVec.toNat_setWidth]
        omega
      rw [rvBaseOpResult_alu insn _ _ funct3 (by rwa [immediate, alternate_funct7]), immediate,
        word]
      exact congrArg (BitVec.signExtend 64) (Rv64.AluOp.eval_shift _ shift amount)

theorem rvBaseOp_aluForm (form : Rv64.AluForm insn i) :
    rvBaseOp mc m h insn = m.writeXreg h i.rd (i.eval (m.xreg h)) := by
  have target : i.rd = rvInsnRd insn := by cases form <;> rfl
  have single : ¬((rvInsnOpMaj insn).getLsbD 3 = true ∧ rvInsnFunct7 insn = 1) := by
    rintro ⟨register, mul⟩
    cases form with
    | op major entry => exact (opTable_selects _ (List.mem_append_left _ entry)).2.2 mul
    | op32 major entry => exact (opTable_selects _ (List.mem_append_right _ entry)).2.2 mul
    | imm major entry | shift major entry | addiw major entry | shiftW major entry =>
        rw [opMaj_bit major] at register
        cases register
  rw [rvBaseOp, if_neg single, rvBaseOpResult_aluForm form, target]

/-- `rv_base_op` writes the result of the ISA to `rd` and changes nothing else. -/
theorem rvBaseOp_isa (mc : EmuConfig δ) (m : EmuMachine δ) (h : Nat) (insn : U32)
    (major : Rv64.Major) (form : Rv64.majorOf insn = some major)
    (integer : major ∈ Rv64.aluMajors) (valid : Rv64.listed insn major = true)
    (single : major = .op ∨ major = .op32 → Rv64.funct7 insn ≠ 1) :
    ∃ i, Rv64.aluOf insn = some i ∧
      rvBaseOp mc m h insn = m.writeXreg h i.rd (i.eval (m.xreg h)) ∧
      (i.rd = 0 → rvBaseOp mc m h insn = m) := by
  rcases Rv64.exists_aluOf form integer valid single with ⟨i, decoded⟩
  have written : rvBaseOp mc m h insn = m.writeXreg h i.rd (i.eval (m.xreg h)) :=
    rvBaseOp_aluForm (Rv64.aluOf_form decoded)
  refine ⟨i, decoded, written, ?_⟩
  intro zero
  rw [written, zero, m.writeXreg_zero h]

/-- A machine at reset but for `x1`, a word with its sign bit set. -/
def negativeX1 : EmuMachine Unit := (emuMachineInit ()).writeXreg 0 1 0x80000000

/-- `sraiw x3, x1, 31` fills `x3` with the sign of the word. -/
theorem rvBaseOp_isa_sraiw : ∃ i, Rv64.aluOf 0x41f0d19b = some i ∧
    i.rd = 3 ∧ i.eval (negativeX1.xreg 0) = BitVec.allOnes 64 ∧
    rvBaseOp (EmuConfig.ramOnly 0 0x1000 1) negativeX1 0 0x41f0d19b =
      negativeX1.writeXreg 0 i.rd (i.eval (negativeX1.xreg 0)) := by
  obtain ⟨i, decoded, written, _⟩ := rvBaseOp_isa (EmuConfig.ramOnly 0 0x1000 1) negativeX1 0
    0x41f0d19b .opImm32 (by decide) (by decide) (by decide) (by decide)
  have form : Rv64.aluOf 0x41f0d19b = some ⟨.sra, true, 3, 1, .shamt 31⟩ := by decide
  cases decoded.symm.trans form
  exact ⟨_, decoded, rfl, by decide +kernel, written⟩

end Instructions

end Riscmulator
