import Riscmulator.Compressed
import Riscmulator.Lib.Words

/-! The fields and immediates that the executor reads from the words of the encoders
of `rv_decompress.h`. -/

namespace Riscmulator

variable {δ : Type}

/-! ### Immediates -/

/-- The signed range of `n` bits. -/
def ImmRange (n : Nat) (imm : Int) : Prop := -2 ^ (n - 1) ≤ imm ∧ imm < 2 ^ (n - 1)

instance (n : Nat) (imm : Int) : Decidable (ImmRange n imm) := inferInstanceAs (Decidable (_ ∧ _))

theorem signExtend_ofInt {n : Nat} {imm : Int} (range : ImmRange n imm) (positive : 0 < n)
    (wider : n ≤ 64) : (BitVec.ofInt n imm).signExtend 64 = BitVec.ofInt 64 imm := by
  rw [Words.signExtend_eq_ofInt _ wider,
    BitVec.toInt_ofInt_eq_self positive range.1 range.2]

theorem getLsbD_zero_ofInt {n : Nat} {imm : Int} (even : imm % 2 = 0) :
    (BitVec.ofInt n imm).getLsbD 0 = false := by
  rcases Nat.eq_zero_or_pos n with rfl | positive
  · exact BitVec.getLsbD_of_ge _ _ (le_refl 0)
  have divides : (2 : Int) ∣ ((2 ^ n : Nat) : Int) := by
    exact_mod_cast dvd_pow_self 2 (by omega : n ≠ 0)
  have low := Int.emod_emod_of_dvd imm divides
  have nonneg : 0 ≤ imm % ((2 ^ n : Nat) : Int) := Int.emod_nonneg _ (by positivity)
  rw [BitVec.getLsbD, Nat.testBit_zero, BitVec.toNat_ofInt]
  simp only [decide_eq_false_iff_not]
  omega

/-- The immediate of LUI stands above twelve zeros. -/
theorem upper_ofInt {imm : Int} (range : ImmRange 20 imm) :
    ((BitVec.ofInt 20 imm) ++ 0#12).signExtend 64 = BitVec.ofInt 64 (imm * 4096) := by
  rw [Words.signExtend_eq_ofInt _ (by decide), BitVec.toInt_append,
    BitVec.toInt_ofInt_eq_self (by decide) range.1 range.2, if_neg (by decide), BitVec.toNat_zero]
  congr 1
  omega

/-! ### Formats -/

section Formats

variable (mc : EmuConfig δ) (m : EmuMachine δ) (h : Nat) (insn : U32)

structure DecodesR (funct7 : BitVec 7) (rs2 rs1 : BitVec 5) (funct3 : BitVec 3) (rd : BitVec 5)
    (opcode : BitVec 7) : Prop where
  funct7 : rvInsnFunct7 insn = funct7
  rs2 : rvInsnRs2 insn = rs2
  rs1 : rvInsnRs1 insn = rs1
  funct3 : rvInsnFunct3 insn = funct3
  rd : rvInsnRd insn = rd
  opMaj : rvInsnOpMaj insn = opcode.extractLsb' 2 5

structure DecodesI (imm : Int) (rs1 : BitVec 5) (funct3 : BitVec 3) (rd : BitVec 5)
    (opcode : BitVec 7) : Prop where
  imm : rvInsnImm12 insn = BitVec.ofInt 64 imm
  rs1 : rvInsnRs1 insn = rs1
  funct3 : rvInsnFunct3 insn = funct3
  rd : rvInsnRd insn = rd
  opMaj : rvInsnOpMaj insn = opcode.extractLsb' 2 5

structure DecodesS (imm : Int) (rs2 rs1 : BitVec 5) (funct3 : BitVec 3) (opcode : BitVec 7) :
    Prop where
  imm : rvInsnSImm12 insn = BitVec.ofInt 64 imm
  rs2 : rvInsnRs2 insn = rs2
  rs1 : rvInsnRs1 insn = rs1
  funct3 : rvInsnFunct3 insn = funct3
  opMaj : rvInsnOpMaj insn = opcode.extractLsb' 2 5

/-- LUI and AUIPC are told apart by a bit of the opcode. -/
structure DecodesU (imm : Int) (rd : BitVec 5) (opcode : BitVec 7) : Prop where
  lui : opcode.getLsbD 5 = true →
    rvBaseLui m h insn = m.writeXreg h rd (BitVec.ofInt 64 (imm * 4096))
  auipc : opcode.getLsbD 5 = false →
    rvBaseLui m h insn = m.writeXreg h rd (BitVec.ofInt 64 (imm * 4096) + (m.cpus h).epc)
  rd : rvInsnRd insn = rd
  opMaj : rvInsnOpMaj insn = opcode.extractLsb' 2 5

structure DecodesB (imm : Int) (rs2 rs1 : BitVec 5) (funct3 : BitVec 3) (opcode : BitVec 7) :
    Prop where
  taken : rvBranchCond funct3 (m.xreg h rs1) (m.xreg h rs2) = some true →
    rvBaseBranch mc m h insn = m.setPc h ((m.cpus h).epc + BitVec.ofInt 64 imm)
  rs2 : rvInsnRs2 insn = rs2
  rs1 : rvInsnRs1 insn = rs1
  funct3 : rvInsnFunct3 insn = funct3
  opMaj : rvInsnOpMaj insn = opcode.extractLsb' 2 5

structure DecodesJ (imm : Int) (rd : BitVec 5) (opcode : BitVec 7) : Prop where
  jal : rvBaseJal m h insn =
    (m.writeXreg h rd (m.cpus h).pc).setPc h ((m.cpus h).epc + BitVec.ofInt 64 imm)
  rd : rvInsnRd insn = rd
  opMaj : rvInsnOpMaj insn = opcode.extractLsb' 2 5

end Formats

/-! ### Round trips -/

section RoundTrips

variable (mc : EmuConfig δ) (m : EmuMachine δ) (h : Nat) {imm : Int} (funct7 : BitVec 7)
  (rs2 rs1 : BitVec 5) (funct3 : BitVec 3) (rd : BitVec 5) (opcode : BitVec 7)

theorem rvEncR_decodes :
    DecodesR (rvEncR (funct7.setWidth 32) (rs2.setWidth 32) (rs1.setWidth 32)
      (funct3.setWidth 32) (rd.setWidth 32) (opcode.setWidth 32)) funct7 rs2 rs1 funct3 rd
      opcode := by
  rw [rvEncR_eq]
  exact ⟨Rv64.funct7_pack _ _ _ _ _ _, Rv64.rs2_pack _ _ _ _ _ _, Rv64.rs1_pack _ _ _ _ _ _,
    Rv64.funct3_pack _ _ _ _ _ _, Rv64.rd_pack _ _ _ _ _ _, rvInsnOpMaj_pack _ _ _ _ _ _⟩

theorem rvEncI_decodes (range : ImmRange 12 imm) :
    DecodesI (rvEncI (BitVec.ofInt 32 imm) (rs1.setWidth 32) (funct3.setWidth 32)
      (rd.setWidth 32) (opcode.setWidth 32)) imm rs1 funct3 rd opcode := by
  rw [rvEncI_eq rs1 funct3 rd opcode (Words.setWidth_ofInt imm (by decide))]
  constructor
  · rw [rvInsnImm12_encI, signExtend_ofInt range (by decide) (by decide)]
  · exact Rv64.rs1_pack _ _ _ _ _ _
  · exact Rv64.funct3_pack _ _ _ _ _ _
  · exact Rv64.rd_pack _ _ _ _ _ _
  · exact rvInsnOpMaj_pack _ _ _ _ _ _

theorem rvEncS_decodes (range : ImmRange 12 imm) :
    DecodesS (rvEncS (BitVec.ofInt 32 imm) (rs2.setWidth 32) (rs1.setWidth 32)
      (funct3.setWidth 32) (opcode.setWidth 32)) imm rs2 rs1 funct3 opcode := by
  rw [rvEncS_eq rs2 rs1 funct3 opcode (Words.setWidth_ofInt imm (by decide))]
  constructor
  · rw [rvInsnSImm12_encS, signExtend_ofInt range (by decide) (by decide)]
  · exact Rv64.rs2_pack _ _ _ _ _ _
  · exact Rv64.rs1_pack _ _ _ _ _ _
  · exact Rv64.funct3_pack _ _ _ _ _ _
  · exact rvInsnOpMaj_pack _ _ _ _ _ _

theorem rvEncU_decodes (range : ImmRange 20 imm) :
    DecodesU m h (rvEncU (BitVec.ofInt 32 imm) (rd.setWidth 32) (opcode.setWidth 32)) imm rd
      opcode := by
  rw [rvEncU_eq rd opcode (Words.setWidth_ofInt imm (by decide))]
  have target : rvInsnRd (Rv64.encU (BitVec.ofInt 20 imm) rd opcode) = rd :=
    Rv64.rd_pack _ _ _ _ _ _
  have major : rvInsnOpMaj (Rv64.encU (BitVec.ofInt 20 imm) rd opcode) =
      opcode.extractLsb' 2 5 := rvInsnOpMaj_pack _ _ _ _ _ _
  have bit : (opcode.extractLsb' 2 5).getLsbD 3 = opcode.getLsbD 5 := by
    rw [BitVec.getLsbD_extractLsb']
    rfl
  constructor
  · intro lui
    rw [rvBaseLui, upper_encU, upper_ofInt range, target, major, bit, lui]
    rfl
  · intro auipc
    rw [rvBaseLui, upper_encU, upper_ofInt range, target, major, bit, auipc]
    rfl
  · exact target
  · exact major

theorem rvEncB_decodes (range : ImmRange 13 imm) (even : imm % 2 = 0) :
    DecodesB mc m h (rvEncB (BitVec.ofInt 32 imm) (rs2.setWidth 32) (rs1.setWidth 32)
      (funct3.setWidth 32) (opcode.setWidth 32)) imm rs2 rs1 funct3 opcode := by
  rw [rvEncB_eq rs2 rs1 funct3 opcode (Words.setWidth_ofInt imm (by decide))]
  have second : rvInsnRs2 (Rv64.encB (BitVec.ofInt 13 imm) rs2 rs1 funct3 opcode) = rs2 :=
    Rv64.rs2_pack _ _ _ _ _ _
  have first : rvInsnRs1 (Rv64.encB (BitVec.ofInt 13 imm) rs2 rs1 funct3 opcode) = rs1 :=
    Rv64.rs1_pack _ _ _ _ _ _
  have condition : rvInsnFunct3 (Rv64.encB (BitVec.ofInt 13 imm) rs2 rs1 funct3 opcode) =
      funct3 := Rv64.funct3_pack _ _ _ _ _ _
  have offset := rvBranchImm_encB rs2 rs1 funct3 opcode (BitVec.ofInt 13 imm)
    (getLsbD_zero_ofInt even)
  rw [signExtend_ofInt range (by decide) (by decide)] at offset
  constructor
  · intro taken
    rw [rvBaseBranch, condition, first, second, taken, offset, BitVec.add_comm]
  · exact second
  · exact first
  · exact condition
  · exact rvInsnOpMaj_pack _ _ _ _ _ _

theorem rvEncJ_decodes (range : ImmRange 21 imm) (even : imm % 2 = 0) :
    DecodesJ m h (rvEncJ (BitVec.ofInt 32 imm) (rd.setWidth 32) (opcode.setWidth 32)) imm rd
      opcode := by
  rw [rvEncJ_eq rd opcode (Words.setWidth_ofInt imm (by decide))]
  have target : rvInsnRd (Rv64.encJ (BitVec.ofInt 21 imm) rd opcode) = rd :=
    Rv64.rd_pack _ _ _ _ _ _
  have offset := rvJalImm_encJ rd opcode (BitVec.ofInt 21 imm) (getLsbD_zero_ofInt even)
  rw [signExtend_ofInt range (by decide) (by decide)] at offset
  constructor
  · rw [rvBaseJal, target, offset]
  · exact target
  · exact rvInsnOpMaj_pack _ _ _ _ _ _

/-- What the executor reads from the word of every encoder are the encoder's arguments:
registers, functions and opcodes of their width, and immediates in the signed range
of their format. -/
theorem encoders_decode (imm : Int) :
    DecodesR (rvEncR (funct7.setWidth 32) (rs2.setWidth 32) (rs1.setWidth 32)
      (funct3.setWidth 32) (rd.setWidth 32) (opcode.setWidth 32)) funct7 rs2 rs1 funct3 rd
      opcode ∧
    (ImmRange 12 imm →
      DecodesI (rvEncI (BitVec.ofInt 32 imm) (rs1.setWidth 32) (funct3.setWidth 32)
        (rd.setWidth 32) (opcode.setWidth 32)) imm rs1 funct3 rd opcode ∧
      DecodesS (rvEncS (BitVec.ofInt 32 imm) (rs2.setWidth 32) (rs1.setWidth 32)
        (funct3.setWidth 32) (opcode.setWidth 32)) imm rs2 rs1 funct3 opcode) ∧
    (ImmRange 20 imm →
      DecodesU m h (rvEncU (BitVec.ofInt 32 imm) (rd.setWidth 32) (opcode.setWidth 32)) imm rd
        opcode) ∧
    (ImmRange 13 imm → imm % 2 = 0 →
      DecodesB mc m h (rvEncB (BitVec.ofInt 32 imm) (rs2.setWidth 32) (rs1.setWidth 32)
        (funct3.setWidth 32) (opcode.setWidth 32)) imm rs2 rs1 funct3 opcode) ∧
    (ImmRange 21 imm → imm % 2 = 0 →
      DecodesJ m h (rvEncJ (BitVec.ofInt 32 imm) (rd.setWidth 32) (opcode.setWidth 32)) imm rd
        opcode) := by
  refine ⟨rvEncR_decodes funct7 rs2 rs1 funct3 rd opcode, ?_, ?_, ?_, ?_⟩
  · intro range
    exact ⟨rvEncI_decodes rs1 funct3 rd opcode range, rvEncS_decodes rs2 rs1 funct3 opcode range⟩
  · exact rvEncU_decodes m h rd opcode
  · exact rvEncB_decodes mc m h rs2 rs1 funct3 opcode
  · exact rvEncJ_decodes m h rd opcode

end RoundTrips

/-- `jal x1` and a branch that is taken, `beq x0, x0`, to the lowest offsets. -/
theorem encoders_decode_jal :
    rvBaseJal (emuMachineInit ()) 0 (rvEncJ (BitVec.ofInt 32 (-1048576)) 1 0x6f) =
      ((emuMachineInit ()).writeXreg 0 1 ((emuMachineInit ()).cpus 0).pc).setPc 0
        (((emuMachineInit ()).cpus 0).epc + BitVec.ofInt 64 (-1048576)) ∧
    rvBaseBranch (EmuConfig.ramOnly 0 0x1000 1) (emuMachineInit ()) 0
        (rvEncB (BitVec.ofInt 32 (-4096)) 0 0 0 0x63) =
      (emuMachineInit ()).setPc 0
        (((emuMachineInit ()).cpus 0).epc + BitVec.ofInt 64 (-4096)) :=
  ⟨((encoders_decode (EmuConfig.ramOnly 0 0x1000 1) (emuMachineInit ()) 0 0 0 0 0 1 0x6f
      (-1048576)).2.2.2.2 (by decide) (by decide)).jal,
    ((encoders_decode (EmuConfig.ramOnly 0 0x1000 1) (emuMachineInit ()) 0 0 0 0 0 0 0x63
      (-4096)).2.2.2.1 (by decide) (by decide)).taken (by decide +kernel)⟩

end Riscmulator
