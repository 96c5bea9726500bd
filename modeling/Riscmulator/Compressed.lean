import Riscmulator.Expansion
import Riscmulator.StrictDecode
import Riscmulator.InterruptEnable

/-! A step of `rv_step_insn` on a compressed instruction: fetch, expansion and
execution, against what RV64C assigns to the halfword. -/

namespace Riscmulator

variable {δ : Type}

/-! ### What RV64C assigns to a halfword -/

/-- Log-base 2 of the size of an access. -/
def widthSizeExp : Rvc.Width → Fin 4
  | .word => 2
  | .double | .float => 3

section Assigned

variable (mc : EmuConfig δ) (m : EmuMachine δ) (h : Nat) (pc : U64)

def rvcIllegal (bits : U64) : EmuMachine δ :=
  rvDoTrap mc m h { epc := pc, cause := RvCause.iillegal.code, tval := bits }

def rvcMemTrap (r : RvMemResult) (mode : RvAccess) (addr : U64) : EmuMachine δ :=
  rvDoTrap mc m h { epc := pc, cause := (rvMemCause r mode).code, tval := addr }

/-- FP loads and stores are legal while FS is not off; an illegal one reports the word
of the expansion. -/
def rvcFpOff (width : Rvc.Width) : Bool :=
  width = .float && !rvCheckXs (m.cpus h).csr.mstatus rvStatusFsBaseBit

def rvcLoad (width : Rvc.Width) (rd rs1 : BitVec 5) (offset : BitVec 12) : EmuMachine δ :=
  let addr := m.xreg h rs1 + offset.signExtend 64
  if rvcFpOff m h width then
    rvcIllegal mc m h pc ((Rvc.encode (.load width rd rs1 offset)).setWidth 64)
  else
    let out := rvAccessVirt mc m h addr 0 (widthSizeExp width) .load
    if out.res ≠ .ok then rvcMemTrap mc out.machine h pc out.res .load addr
    else
      let value := width.loaded (out.data.getD 0)
      if width = .float then out.machine.setCpu h (rvFregWrite (out.machine.cpus h) rd value)
      else out.machine.writeXreg h rd value

def rvcStore (width : Rvc.Width) (rs2 rs1 : BitVec 5) (offset : BitVec 12) : EmuMachine δ :=
  let addr := m.xreg h rs1 + offset.signExtend 64
  let value := if width = .float then rvFregRead (m.cpus h) rs2 else m.xreg h rs2
  if rvcFpOff m h width then
    rvcIllegal mc m h pc ((Rvc.encode (.store width rs2 rs1 offset)).setWidth 64)
  else
    let out := rvAccessVirt mc m h addr value (widthSizeExp width) .store
    if out.res ≠ .ok then rvcMemTrap mc out.machine h pc out.res .store addr else out.machine

/-- The effect of an expansion at `pc`, on the machine whose hart is past the
halfword. -/
def rvcExec : Rvc.Instr → EmuMachine δ
  | .imm op rd rs1 value => m.writeXreg h rd (op.eval (m.xreg h rs1) value)
  | .shift op rd rs1 shamt => m.writeXreg h rd (op.eval (m.xreg h rs1) shamt)
  | .reg op rd rs1 rs2 => m.writeXreg h rd (op.eval (m.xreg h rs1) (m.xreg h rs2))
  | .lui rd value => m.writeXreg h rd ((value ++ 0#12).signExtend 64)
  | .load width rd rs1 offset => rvcLoad mc m h pc width rd rs1 offset
  | .store width rs2 rs1 offset => rvcStore mc m h pc width rs2 rs1 offset
  | .jal rd offset => (m.writeXreg h rd (pc + 2)).setPc h (pc + offset.signExtend 64)
  | .jalr rd rs1 => (m.writeXreg h rd (pc + 2)).setPc h (m.xreg h rs1 &&& ~~~1)
  | .branch equal rs1 offset =>
      if (m.xreg h rs1 == m.xreg h 0) = equal then m.setPc h (pc + offset.signExtend 64) else m
  | .ebreak => rvDoTrap mc m h { epc := pc, cause := RvCause.ebreak.code, tval := 0 }

/-- The step on the halfword `hw` at `pc`, from the machine that its fetch leaves. -/
def rvcStep (hw : U16) : EmuMachine δ :=
  match Rvc.expand hw with
  | none => rvcIllegal mc (m.setCpu h { m.cpus h with epc := pc }) h pc (hw.setWidth 64)
  | some i =>
      rvCheckInterrupts mc
        (rvcExec mc (m.setCpu h { m.cpus h with epc := pc, pc := pc + 2 }) h pc i) h

end Assigned

/-! ### Words and the fields that the handlers read -/

section Words

variable (funct7 : BitVec 7) (rs2 rs1 : BitVec 5) (funct3 : BitVec 3) (rd : BitVec 5)
  (opcode : BitVec 7)

theorem rvInsnOpMaj_pack :
    rvInsnOpMaj (Rv64.pack funct7 rs2 rs1 funct3 rd opcode) = opcode.extractLsb' 2 5 := by
  rw [rvInsnOpMaj_eq, Rv64.opcode, Rv64.opcode_pack]

theorem rvInsnImm12_encI (imm : BitVec 12) :
    rvInsnImm12 (Rv64.encI imm rs1 funct3 rd opcode) = imm.signExtend 64 := by
  have top : (Rv64.encI imm rs1 funct3 rd opcode).sshiftRight 20 = imm.signExtend 32 := by
    apply BitVec.eq_of_getLsbD_eq
    intro i word
    rw [BitVec.getLsbD_sshiftRight, BitVec.getLsbD_signExtend, BitVec.msb_eq_getLsbD_last,
      BitVec.msb_eq_getLsbD_last, Rv64.encI, Rv64.getLsbD_pack, Rv64.getLsbD_pack]
    interval_cases i <;> simp
  rw [rvInsnImm12, top, BitField.signExtend_signExtend _ (by decide) (by decide)]

theorem rvInsnSImm12_encS (imm : BitVec 12) :
    rvInsnSImm12 (Rv64.encS imm rs2 rs1 funct3 opcode) = imm.signExtend 64 := by
  have joined : ((Rv64.encS imm rs2 rs1 funct3 opcode &&& 0xfe000000).sshiftRight 20) |||
      ((Rv64.encS imm rs2 rs1 funct3 opcode &&& 0xf80).sshiftRight 7) = imm.signExtend 32 := by
    apply BitVec.eq_of_getLsbD_eq
    intro i word
    simp only [BitVec.getLsbD_or, BitVec.getLsbD_sshiftRight, BitVec.getLsbD_signExtend,
      BitVec.msb_eq_getLsbD_last, BitVec.getLsbD_and, Rv64.encS, Rv64.getLsbD_pack]
    interval_cases i <;> simp
  rw [rvInsnSImm12, joined, BitField.signExtend_signExtend _ (by decide) (by decide)]

theorem rvJalImm_encJ (offset : BitVec 21) (even : offset.getLsbD 0 = false) :
    (rvJalImm (Rv64.encJ offset rd opcode)).signExtend 64 = offset.signExtend 64 := by
  have joined : rvJalImm (Rv64.encJ offset rd opcode) = offset.signExtend 32 := by
    apply BitVec.eq_of_getLsbD_eq
    intro i word
    simp only [rvJalImm, BitVec.getLsbD_or, BitVec.getLsbD_sshiftRight, BitVec.getLsbD_signExtend,
      BitVec.getLsbD_shiftLeft, BitVec.getLsbD_ushiftRight, BitVec.msb_eq_getLsbD_last,
      BitVec.getLsbD_and, Rv64.encJ, Rv64.getLsbD_pack, BitVec.getLsbD_append,
      BitVec.getLsbD_extractLsb']
    interval_cases i
    case «0» => exact even.symm
    all_goals simp
  rw [joined, BitField.signExtend_signExtend _ (by decide) (by decide)]

theorem rvBranchImm_encB (offset : BitVec 13) (even : offset.getLsbD 0 = false) :
    (rvBranchImm (Rv64.encB offset rs2 rs1 funct3 opcode)).signExtend 64 =
      offset.signExtend 64 := by
  have joined : rvBranchImm (Rv64.encB offset rs2 rs1 funct3 opcode) = offset.signExtend 32 := by
    apply BitVec.eq_of_getLsbD_eq
    intro i word
    simp only [rvBranchImm, BitVec.getLsbD_or, BitVec.getLsbD_sshiftRight,
      BitVec.getLsbD_signExtend, BitVec.getLsbD_shiftLeft, BitVec.msb_eq_getLsbD_last,
      BitVec.getLsbD_and, Rv64.encB, Rv64.getLsbD_pack, BitVec.getLsbD_append,
      BitVec.getLsbD_extractLsb']
    interval_cases i
    case «0» => exact even.symm
    all_goals simp
  rw [joined, BitField.signExtend_signExtend _ (by decide) (by decide)]

theorem upper_encU (value : BitVec 20) :
    (Rv64.encU value rd opcode &&& 0xfffff000).signExtend 64 = (value ++ 0#12).signExtend 64 := by
  have same : Rv64.encU value rd opcode &&& 0xfffff000 = value ++ 0#12 := by
    apply BitVec.eq_of_getLsbD_eq
    intro i word
    rw [BitVec.getLsbD_and, Rv64.encU, Rv64.getLsbD_pack, BitVec.getLsbD_append]
    interval_cases i <;> simp
  rw [same]

theorem bit30_pack :
    (Rv64.pack funct7 rs2 rs1 funct3 rd opcode).getLsbD 30 = funct7.getLsbD 5 := by
  rw [Rv64.getLsbD_pack]
  rfl

/-- The shift amount is the low part of the immediate, below `funct6`. -/
theorem shamt_append (funct6 : BitVec 6) (shamt : BitVec 6) :
    ((funct6 ++ shamt).signExtend 64).toNat &&& 63 = shamt.toNat := by
  have low : (funct6 ++ shamt).signExtend 64 &&& 0x3f = shamt.setWidth 64 := by
    apply BitVec.eq_of_getLsbD_eq
    intro i word
    simp only [BitVec.getLsbD_and, BitVec.getLsbD_signExtend, BitVec.getLsbD_append,
      BitVec.getLsbD_setWidth]
    interval_cases i <;> simp
  calc
    _ = ((funct6 ++ shamt).signExtend 64 &&& 0x3f).toNat := (BitVec.toNat_and _ _).symm
    _ = (shamt.setWidth 64).toNat := by rw [low]
    _ = shamt.toNat := BitVec.toNat_setWidth_of_le (by decide)

end Words

/-! ### Executing the word of an expansion -/

theorem sext32_add (lhs rhs : U64) :
    sext32 (zext32 lhs + zext32 rhs) = Rvc.signWord (lhs + rhs) := by
  simp [sext32, zext32, Rvc.signWord, BitVec.setWidth_add]

theorem sext32_sub (lhs rhs : U64) :
    sext32 (zext32 lhs - zext32 rhs) = Rvc.signWord (lhs - rhs) := by
  have low : (zext32 lhs - zext32 rhs).setWidth 32 = (lhs - rhs).setWidth 32 := by
    apply BitVec.eq_of_toNat_eq
    simp only [zext32, BitVec.toNat_setWidth, BitVec.toNat_sub]
    omega
  rw [sext32, low, Rvc.signWord]

/-- The value of `rv_base_op`, from the bits of the word that select it. -/
def baseOpValue (isReg is32 alternate : Bool) (funct3 : BitVec 3) (rs1 rhs : U64) : U64 :=
  let lhsS := if is32 then sext32 rs1 else rs1
  let rhsS := if is32 then sext32 rhs else rhs
  let lhs := if is32 then zext32 rs1 else rs1
  let rhs := if is32 then zext32 rhs else rhs
  let shamt := (rhs &&& (if is32 then 0x1f else 0x3f)).toNat
  let res : U64 :=
    match funct3 with
    | 0 => if alternate && isReg then lhs - rhs else lhs + rhs
    | 1 => lhs <<< shamt
    | 2 => if lhsS.slt rhsS then 1 else 0
    | 3 => if lhs < rhs then 1 else 0
    | 4 => lhs ^^^ rhs
    | 5 => if alternate then lhsS.sshiftRight shamt else lhs >>> shamt
    | 6 => lhs ||| rhs
    | _ => lhs &&& rhs
  if is32 then sext32 res else res

theorem rvBaseOpResult_eq (insn : U32) (rs1 rs2 : U64) :
    rvBaseOpResult insn rs1 rs2 =
      baseOpValue ((rvInsnOpMaj insn).getLsbD 3) ((rvInsnOpMaj insn).getLsbD 1) (insn.getLsbD 30)
        (rvInsnFunct3 insn) rs1
        (if (rvInsnOpMaj insn).getLsbD 3 then rs2 else rvInsnImm12 insn) := rfl

section Execution

variable (mc : EmuConfig δ) (m : EmuMachine δ) (h : Nat)

/-- The handler of a word, from its opcode. -/
theorem rvOpMajOf_pack (funct7 : BitVec 7) (rs2 rs1 : BitVec 5) (funct3 : BitVec 3)
    (rd : BitVec 5) (opcode : BitVec 7) :
    rvOpMajOf (Rv64.pack funct7 rs2 rs1 funct3 rd opcode) =
      rvOpMajDefs.lookup (opcode.extractLsb' 2 5) := by
  rw [rvOpMajOf, rvInsnOpMaj_pack]

/-- OP, OP-IMM, OP-32 and OP-IMM-32. -/
def baseOpcodes : List (BitVec 7) := [0b0110011, 0b0010011, 0b0111011, 0b0011011]

theorem rvForcefeedInsn_op (funct7 : BitVec 7) (rs2 rs1 : BitVec 5) (funct3 : BitVec 3)
    (rd : BitVec 5) {opcode : BitVec 7} (base : opcode ∈ baseOpcodes)
    (single : opcode.getLsbD 5 = false ∨ funct7 ≠ 1) :
    rvForcefeedInsn mc m h (Rv64.pack funct7 rs2 rs1 funct3 rd opcode) =
      m.writeXreg h rd
        (baseOpValue (opcode.getLsbD 5) (opcode.getLsbD 3) (funct7.getLsbD 5) funct3 (m.xreg h rs1)
          (if opcode.getLsbD 5 then m.xreg h rs2
            else rvInsnImm12 (Rv64.pack funct7 rs2 rs1 funct3 rd opcode))) := by
  have bits : ∀ opcode : BitVec 7, (opcode.extractLsb' 2 5).getLsbD 3 = opcode.getLsbD 5 ∧
      (opcode.extractLsb' 2 5).getLsbD 1 = opcode.getLsbD 3 := by decide
  have handled : rvForcefeedInsn mc m h (Rv64.pack funct7 rs2 rs1 funct3 rd opcode) =
      rvBaseOp mc m h (Rv64.pack funct7 rs2 rs1 funct3 rd opcode) := by
    simp only [baseOpcodes, List.mem_cons, List.not_mem_nil, or_false] at base
    rw [rvForcefeedInsn, rvOpMajOf_pack]
    rcases base with rfl | rfl | rfl | rfl <;> rfl
  have noMul : ¬(opcode.getLsbD 5 = true ∧ funct7 = 1) := by
    rintro ⟨reg, mul⟩
    rcases single with imm | other
    · rw [imm] at reg
      cases reg
    · exact other mul
  calc
    rvForcefeedInsn mc m h (Rv64.pack funct7 rs2 rs1 funct3 rd opcode) =
        rvBaseOp mc m h (Rv64.pack funct7 rs2 rs1 funct3 rd opcode) := handled
    _ = m.writeXreg h rd (rvBaseOpResult (Rv64.pack funct7 rs2 rs1 funct3 rd opcode)
        (m.xreg h rs1) (m.xreg h rs2)) := by
      rw [rvBaseOp, rvInsnOpMaj_pack, (bits opcode).1, rvInsnFunct7, Rv64.funct7_pack,
        if_neg noMul, rvInsnRd, Rv64.rd_pack, rvInsnRs1, Rv64.rs1_pack, rvInsnRs2, Rv64.rs2_pack]
    _ = _ := by
      rw [rvBaseOpResult_eq, rvInsnOpMaj_pack, (bits opcode).1, (bits opcode).2, bit30_pack,
        rvInsnFunct3, Rv64.funct3_pack]

theorem rvForcefeedInsn_imm (op : Rvc.ImmOp) (rd rs1 : BitVec 5) (value : BitVec 12) :
    rvForcefeedInsn mc m h (Rvc.encode (.imm op rd rs1 value)) =
      m.writeXreg h rd (op.eval (m.xreg h rs1) value) := by
  have imm := rvInsnImm12_encI rs1 op.code.1 rd op.code.2 value
  have base : op.code.2 ∈ baseOpcodes := by cases op <;> decide
  have single : op.code.2.getLsbD 5 = false := by cases op <;> rfl
  rw [Rv64.encI] at imm
  rw [Rvc.encode, Rv64.encI, rvForcefeedInsn_op mc m h _ _ _ _ _ base (Or.inl single), single, imm]
  congr 1
  cases op with
  | addi => simp [baseOpValue, Rvc.ImmOp.code, Rvc.ImmOp.eval]
  | addiw => simp [baseOpValue, Rvc.ImmOp.code, Rvc.ImmOp.eval, sext32_add]
  | andi => simp [baseOpValue, Rvc.ImmOp.code, Rvc.ImmOp.eval]

theorem rvForcefeedInsn_shift (op : Rvc.ShiftOp) (rd rs1 : BitVec 5) (shamt : BitVec 6) :
    rvForcefeedInsn mc m h (Rvc.encode (.shift op rd rs1 shamt)) =
      m.writeXreg h rd (op.eval (m.xreg h rs1) shamt) := by
  have imm := rvInsnImm12_encI rs1 op.code.2 rd 0b0010011 (op.code.1 ++ shamt)
  have alternate : ((op.code.1 ++ shamt).extractLsb' 5 7).getLsbD 5 = op.code.1.getLsbD 4 := by
    rw [BitVec.getLsbD_extractLsb', BitVec.getLsbD_append]
    rfl
  rw [Rv64.encI] at imm
  rw [Rvc.encode, Rv64.encI, rvForcefeedInsn_op mc m h _ _ _ _ _ (by decide) (Or.inl rfl), imm,
    alternate]
  congr 1
  cases op with
  | slli => simp [baseOpValue, Rvc.ShiftOp.code, Rvc.ShiftOp.eval, shamt_append]
  | srli => simp [baseOpValue, Rvc.ShiftOp.code, Rvc.ShiftOp.eval, shamt_append]
  | srai => simp [baseOpValue, Rvc.ShiftOp.code, Rvc.ShiftOp.eval, shamt_append]

theorem rvForcefeedInsn_reg (op : Rvc.RegOp) (rd rs1 rs2 : BitVec 5) :
    rvForcefeedInsn mc m h (Rvc.encode (.reg op rd rs1 rs2)) =
      m.writeXreg h rd (op.eval (m.xreg h rs1) (m.xreg h rs2)) := by
  have base : op.code.2.2 ∈ baseOpcodes := by cases op <;> decide
  have single : op.code.1 ≠ 1 := by cases op <;> decide
  have reg : op.code.2.2.getLsbD 5 = true := by cases op <;> rfl
  rw [Rvc.encode, rvForcefeedInsn_op mc m h _ _ _ _ _ base (Or.inr single), reg]
  congr 1
  cases op with
  | add | sub | xor | or | and => simp [baseOpValue, Rvc.RegOp.code, Rvc.RegOp.eval]
  | addw => simp [baseOpValue, Rvc.RegOp.code, Rvc.RegOp.eval, sext32_add]
  | subw => simp [baseOpValue, Rvc.RegOp.code, Rvc.RegOp.eval, sext32_sub]

theorem rvForcefeedInsn_lui (rd : BitVec 5) (value : BitVec 20) :
    rvForcefeedInsn mc m h (Rvc.encode (.lui rd value)) =
      m.writeXreg h rd ((value ++ 0#12).signExtend 64) := by
  have upper := upper_encU rd 0b0110111 value
  rw [Rv64.encU] at upper
  rw [Rvc.encode, Rv64.encU]
  calc
    rvForcefeedInsn mc m h (Rv64.pack _ _ _ _ rd 0b0110111) =
        rvBaseLui m h (Rv64.pack _ _ _ _ rd 0b0110111) := by
      rw [rvForcefeedInsn, rvOpMajOf_pack]
      rfl
    _ = m.writeXreg h rd ((value ++ 0#12).signExtend 64) := by
      rw [rvBaseLui, upper, rvInsnOpMaj_pack, rvInsnRd, Rv64.rd_pack]
      rfl

/-- The fields of a word that an access reads. -/
structure AccessWord (width : Rvc.Width) (rs1 : BitVec 5) (insn : U32) : Prop where
  float : (rvInsnOpMaj insn).getLsbD 0 = decide (width = .float)
  funct3 : rvInsnFunct3 insn = width.funct3
  rs1 : rvInsnRs1 insn = rs1

theorem AccessWord.fpOff {width : Rvc.Width} {rs1 : BitVec 5} {insn : U32}
    (word : AccessWord width rs1 insn) :
    rvFpAccessIllegal (m.cpus h) insn = rvcFpOff m h width := by
  have sized : (width.funct3 &&& 6) = 2 := by cases width <;> rfl
  rw [rvFpAccessIllegal, word.float, word.funct3, sized, rvcFpOff]
  simp

theorem load_word (width : Rvc.Width) (rd rs1 : BitVec 5) (offset : BitVec 12) :
    AccessWord width rs1 (Rvc.encode (.load width rd rs1 offset)) := by
  rw [Rvc.encode, Rv64.encI]
  constructor
  · rw [rvInsnOpMaj_pack]
    cases width <;> rfl
  · exact Rv64.funct3_pack _ _ _ _ _ _
  · exact Rv64.rs1_pack _ _ _ _ _ _

theorem store_word (width : Rvc.Width) (rs2 rs1 : BitVec 5) (offset : BitVec 12) :
    AccessWord width rs1 (Rvc.encode (.store width rs2 rs1 offset)) := by
  rw [Rvc.encode, Rv64.encS]
  constructor
  · rw [rvInsnOpMaj_pack]
    cases width <;> rfl
  · exact Rv64.funct3_pack _ _ _ _ _ _
  · exact Rv64.rs1_pack _ _ _ _ _ _

theorem rvForcefeedInsn_load {pc : U64} (fetched : (m.cpus h).epc = pc) (width : Rvc.Width)
    (rd rs1 : BitVec 5) (offset : BitVec 12) :
    rvForcefeedInsn mc m h (Rvc.encode (.load width rd rs1 offset)) =
      rvcLoad mc m h pc width rd rs1 offset := by
  have word := load_word width rd rs1 offset
  have imm : rvInsnImm12 (Rvc.encode (.load width rd rs1 offset)) = offset.signExtend 64 :=
    rvInsnImm12_encI rs1 width.funct3 rd width.loadOpcode offset
  have target : rvInsnRd (Rvc.encode (.load width rd rs1 offset)) = rd := by
    rw [Rvc.encode, Rv64.encI, rvInsnRd, Rv64.rd_pack]
  have handled : rvForcefeedInsn mc m h (Rvc.encode (.load width rd rs1 offset)) =
      rvBaseLoad mc m h (Rvc.encode (.load width rd rs1 offset)) := by
    rw [Rvc.encode, Rv64.encI, rvForcefeedInsn, rvOpMajOf_pack]
    cases width <;> rfl
  have sized : rvLoadSizeExp width.funct3 = some (widthSizeExp width) := by cases width <;> rfl
  have loaded : ∀ bytes, rvLoadExtend width.funct3 bytes = width.loaded bytes := by
    cases width <;> exact fun _ => rfl
  have frame :=
    rvAccessVirt_frame mc m h (m.xreg h rs1 + offset.signExtend 64) 0 (widthSizeExp width) .load
  have unboxed : width = .float → width.funct3 ≠ 2 := by
    rintro rfl
    decide
  rw [handled]
  simp only [rvBaseLoad, rvcLoad, rvcIllegal, rvcMemTrap, word.fpOff, word.float, word.funct3,
    word.rs1, imm, target, sized, loaded, rvDoIillegal, rvMemTrap, fetched, (frame.core h).epc,
    decide_eq_true_eq]
  split
  · rfl
  split
  · rfl
  split
  · next float => rw [if_neg (unboxed float)]
  · rfl

theorem rvForcefeedInsn_store {pc : U64} (fetched : (m.cpus h).epc = pc) (width : Rvc.Width)
    (rs2 rs1 : BitVec 5) (offset : BitVec 12) :
    rvForcefeedInsn mc m h (Rvc.encode (.store width rs2 rs1 offset)) =
      rvcStore mc m h pc width rs2 rs1 offset := by
  have word := store_word width rs2 rs1 offset
  have imm : rvInsnSImm12 (Rvc.encode (.store width rs2 rs1 offset)) = offset.signExtend 64 :=
    rvInsnSImm12_encS rs2 rs1 width.funct3 width.storeOpcode offset
  have source : rvInsnRs2 (Rvc.encode (.store width rs2 rs1 offset)) = rs2 := by
    rw [Rvc.encode, Rv64.encS, rvInsnRs2, Rv64.rs2_pack]
  have handled : rvForcefeedInsn mc m h (Rvc.encode (.store width rs2 rs1 offset)) =
      rvBaseStore mc m h (Rvc.encode (.store width rs2 rs1 offset)) := by
    rw [Rvc.encode, Rv64.encS, rvForcefeedInsn, rvOpMajOf_pack]
    cases width <;> rfl
  have sized : rvStoreSizeExp width.funct3 = widthSizeExp width := by cases width <;> rfl
  rw [handled]
  simp only [rvBaseStore, rvcStore, rvcIllegal, rvcMemTrap, word.fpOff, word.float, word.funct3,
    word.rs1, imm, source, sized, rvDoIillegal, rvMemTrap, fetched, decide_eq_true_eq]
  generalize (if width = .float then rvFregRead (m.cpus h) rs2 else m.xreg h rs2) = value
  have frame :=
    rvAccessVirt_frame mc m h (m.xreg h rs1 + offset.signExtend 64) value (widthSizeExp width)
      .store
  rw [(frame.core h).epc, fetched]

theorem rvForcefeedInsn_jal {pc : U64} (fetched : (m.cpus h).epc = pc)
    (next : (m.cpus h).pc = pc + 2) (rd : BitVec 5) {offset : BitVec 21}
    (even : offset.getLsbD 0 = false) :
    rvForcefeedInsn mc m h (Rvc.encode (.jal rd offset)) =
      (m.writeXreg h rd (pc + 2)).setPc h (pc + offset.signExtend 64) := by
  have imm := rvJalImm_encJ rd 0b1101111 offset even
  rw [Rv64.encJ] at imm
  rw [Rvc.encode, Rv64.encJ]
  calc
    rvForcefeedInsn mc m h (Rv64.pack _ _ _ _ rd 0b1101111) =
        rvBaseJal m h (Rv64.pack _ _ _ _ rd 0b1101111) := by
      rw [rvForcefeedInsn, rvOpMajOf_pack]
      rfl
    _ = (m.writeXreg h rd (m.cpus h).pc).setPc h ((m.cpus h).epc + offset.signExtend 64) := by
      rw [rvBaseJal, imm, rvInsnRd, Rv64.rd_pack]
    _ = (m.writeXreg h rd (pc + 2)).setPc h (pc + offset.signExtend 64) := by
      rw [fetched, next]

theorem rvForcefeedInsn_jalr {pc : U64} (next : (m.cpus h).pc = pc + 2) (rd rs1 : BitVec 5) :
    rvForcefeedInsn mc m h (Rvc.encode (.jalr rd rs1)) =
      (m.writeXreg h rd (pc + 2)).setPc h (m.xreg h rs1 &&& ~~~1) := by
  have imm := rvInsnImm12_encI rs1 0 rd 0b1100111 0
  have none : m.xreg h rs1 + (0 : BitVec 12).signExtend 64 = m.xreg h rs1 := BitVec.add_zero _
  rw [Rv64.encI] at imm
  rw [Rvc.encode, Rv64.encI]
  calc
    rvForcefeedInsn mc m h (Rv64.pack _ _ rs1 0 rd 0b1100111) =
        rvBaseJalr m h (Rv64.pack _ _ rs1 0 rd 0b1100111) := by
      rw [rvForcefeedInsn, rvOpMajOf_pack]
      rfl
    _ = (m.writeXreg h rd (m.cpus h).pc).setPc h
        ((m.xreg h rs1 + (0 : BitVec 12).signExtend 64) &&& ~~~1) := by
      rw [rvBaseJalr, imm, rvInsnRd, Rv64.rd_pack, rvInsnRs1, Rv64.rs1_pack]
    _ = (m.writeXreg h rd (pc + 2)).setPc h (m.xreg h rs1 &&& ~~~1) := by
      rw [none, next]

theorem rvForcefeedInsn_branch {pc : U64} (fetched : (m.cpus h).epc = pc) (equal : Bool)
    (rs1 : BitVec 5) {offset : BitVec 13} (even : offset.getLsbD 0 = false) :
    rvForcefeedInsn mc m h (Rvc.encode (.branch equal rs1 offset)) =
      if (m.xreg h rs1 == m.xreg h 0) = equal then m.setPc h (pc + offset.signExtend 64)
      else m := by
  have imm := rvBranchImm_encB 0 rs1 (if equal then 0 else 1) 0b1100011 offset even
  have cond : ∀ lhs rhs : U64,
      rvBranchCond (if equal then 0 else 1) lhs rhs = some ((lhs == rhs) == equal) := by
    intro lhs rhs
    cases equal
    · simp [rvBranchCond, bne]
    · simp [rvBranchCond]
  have handled : rvForcefeedInsn mc m h (Rvc.encode (.branch equal rs1 offset)) =
      rvBaseBranch mc m h (Rvc.encode (.branch equal rs1 offset)) := by
    rw [Rvc.encode, Rv64.encB, rvForcefeedInsn, rvOpMajOf_pack]
    rfl
  rw [handled, rvBaseBranch, Rvc.encode, imm, Rv64.encB, rvInsnFunct3, Rv64.funct3_pack, rvInsnRs1,
    Rv64.rs1_pack, rvInsnRs2, Rv64.rs2_pack, cond, fetched, BitVec.add_comm pc]
  by_cases taken : (m.xreg h rs1 == m.xreg h 0) = equal
  · rw [if_pos taken, taken, beq_self_eq_true]
  · rw [if_neg taken, beq_eq_false_iff_ne.mpr taken]

theorem rvForcefeedInsn_ebreak {pc : U64} (fetched : (m.cpus h).epc = pc) :
    rvForcefeedInsn mc m h (Rvc.encode .ebreak) =
      rvDoTrap mc m h { epc := pc, cause := RvCause.ebreak.code, tval := 0 } := by
  rw [← fetched]
  rfl

/-- Executing the word of an expansion is the effect that RV64C assigns to it. -/
theorem rvForcefeedInsn_encode {pc : U64} (fetched : (m.cpus h).epc = pc)
    (next : (m.cpus h).pc = pc + 2) {i : Rvc.Instr} (even : i.Even) :
    rvForcefeedInsn mc m h (Rvc.encode i) = rvcExec mc m h pc i := by
  cases i with
  | imm op rd rs1 value => exact rvForcefeedInsn_imm mc m h op rd rs1 value
  | shift op rd rs1 shamt => exact rvForcefeedInsn_shift mc m h op rd rs1 shamt
  | reg op rd rs1 rs2 => exact rvForcefeedInsn_reg mc m h op rd rs1 rs2
  | lui rd value => exact rvForcefeedInsn_lui mc m h rd value
  | load width rd rs1 offset => exact rvForcefeedInsn_load mc m h fetched width rd rs1 offset
  | store width rs2 rs1 offset => exact rvForcefeedInsn_store mc m h fetched width rs2 rs1 offset
  | jal rd offset => exact rvForcefeedInsn_jal mc m h fetched next rd even
  | jalr rd rs1 => exact rvForcefeedInsn_jalr mc m h next rd rs1
  | branch equal rs1 offset => exact rvForcefeedInsn_branch mc m h fetched equal rs1 even
  | ebreak => exact rvForcefeedInsn_ebreak mc m h fetched

end Execution

/-! ### Fetches -/

/-- The two bytes at the `pc` of the hart can be fetched, and are `hw`. -/
structure Fetches (mc : EmuConfig δ) (m : EmuMachine δ) (h : Nat) (hw : U16) : Prop where
  ok : (rvAccessVirt mc m h (m.cpus h).pc 0 1 .insn).res = .ok
  data : ((rvAccessVirt mc m h (m.cpus h).pc 0 1 .insn).data.getD 0).setWidth 16 = hw

/-- The step on `hw` is the one that RV64C assigns to it, whatever the hooks are. -/
def CompressedRight (mc : EmuConfig δ) (m : EmuMachine δ) (h : Nat) (hw : U16) : Prop :=
  ∀ hooks, rvStepInsn (mc.hooked hooks) m h =
    rvcStep (mc.hooked hooks) (rvAccessVirt mc m h (m.cpus h).pc 0 1 .insn).machine h
      (m.cpus h).pc hw

section Steps

variable {mc : EmuConfig δ} {m : EmuMachine δ} {h : Nat} {hw : U16}

/-- The step on a halfword that does not expand. -/
theorem rvStepInsn_rejected (fetched : Fetches mc m h hw) (short : hw.extractLsb' 0 2 ≠ 3)
    (rejected : rvDecompress hw = none) :
    rvStepInsn mc m h =
      let low := (rvAccessVirt mc m h (m.cpus h).pc 0 1 .insn).machine
      rvcIllegal mc (low.setCpu h { low.cpus h with epc := (m.cpus h).pc }) h (m.cpus h).pc
        (hw.setWidth 64) := by
  have wide : (hw.setWidth 32).setWidth 64 = hw.setWidth 64 :=
    BitVec.setWidth_setWidth (by decide)
  simp only [rvStepInsn, rvStepInsnBy, rvFetchInsn, rvAccessVirt_pc, fetched.ok, fetched.data,
    rejected, ne_eq, not_true, if_false, short, not_false_eq_true, if_true, rvDoIillegal,
    EmuMachine.setCpu_same, rvcIllegal, wide]

theorem rvStepInsn_expanded (fetched : Fetches mc m h hw) (short : hw.extractLsb' 0 2 ≠ 3)
    {i : Rvc.Instr} (expanded : rvDecompress hw = some (Rvc.encode i)) (even : i.Even) :
    rvStepInsn mc m h =
      let low := (rvAccessVirt mc m h (m.cpus h).pc 0 1 .insn).machine
      rvCheckInterrupts mc
        (rvcExec mc (low.setCpu h
          { low.cpus h with epc := (m.cpus h).pc, pc := (m.cpus h).pc + 2 }) h (m.cpus h).pc i)
        h := by
  simp only [rvStepInsn, rvStepInsnBy, rvFetchInsn, rvAccessVirt_pc, fetched.ok, fetched.data,
    expanded, ne_eq, not_true, if_false, short, not_false_eq_true, if_true, rvFetched]
  rw [rvForcefeedInsn_encode mc _ h (by rw [EmuMachine.setCpu_same])
    (by rw [EmuMachine.setCpu_same]) even]

theorem Fetches.hooked (fetched : Fetches mc m h hw) (hooks) :
    Fetches (mc.hooked hooks) m h hw := by
  constructor
  · rw [rvAccessVirt_hooked]
    exact fetched.ok
  · rw [rvAccessVirt_hooked]
    exact fetched.data

/-- An interrupt is taken without a hook. -/
theorem rvCheckInterrupts_aborted (mc : EmuConfig δ) (m : EmuMachine δ) (h : Nat) :
    (rvCheckInterrupts mc m h).aborted = m.aborted := by
  unfold rvCheckInterrupts
  split
  · rfl
  · next j found =>
      have known : j ∈ irqPriority := List.mem_of_find?_eq_some found
      rw [rvDoTrap_interrupt mc m h (rvInterruptTrap_cause _ known).1]
      rfl

/-- The step that RV64C assigns to a rejected HINT raises no exception. -/
theorem RejectedHint.step_aborted (hint : RejectedHint hw) (mc : EmuConfig δ)
    (m : EmuMachine δ) (h : Nat) (pc : U64) : (rvcStep mc m h pc hw).aborted = m.aborted := by
  rcases hint.rejected.2 with shift | upper
  · rw [rvcStep, shift]
    exact rvCheckInterrupts_aborted mc _ h
  · rw [rvcStep, upper]
    exact rvCheckInterrupts_aborted mc _ h

/-- The step on a HINT that the code rejects is not right. -/
theorem CompressedRight.not_rejected (right : CompressedRight mc m h hw)
    (fetched : Fetches mc m h hw) (short : hw.extractLsb' 0 2 ≠ 3) : ¬RejectedHint hw := by
  intro hint
  have marked : ∀ mark : Bool,
      mark = (rvAccessVirt mc m h (m.cpus h).pc 0 1 .insn).machine.aborted := by
    intro mark
    calc
      mark = (rvStepInsn (mc.hooked (markIllegal mark)) m h).aborted := by
        rw [rvStepInsn_rejected (fetched.hooked _) short hint.rejected.1]
        exact (rvDoTrap_marks mc mark _ h _ _).symm
      _ = _ := by rw [right, hint.step_aborted]
  exact absurd ((marked true).trans (marked false).symm) (by decide)

theorem compressedRight_of_expands (fetched : Fetches mc m h hw)
    (short : hw.extractLsb' 0 2 ≠ 3)
    (expands : rvDecompress hw = (Rvc.expand hw).map Rvc.encode) : CompressedRight mc m h hw := by
  intro hooks
  have fetch : (rvAccessVirt (mc.hooked hooks) m h (m.cpus h).pc 0 1 .insn).machine =
      (rvAccessVirt mc m h (m.cpus h).pc 0 1 .insn).machine := by rw [rvAccessVirt_hooked]
  cases expanded : Rvc.expand hw with
  | none =>
      rw [expanded] at expands
      rw [rvStepInsn_rejected (fetched.hooked hooks) short expands, fetch, rvcStep, expanded]
  | some i =>
      rw [expanded] at expands
      rw [rvStepInsn_expanded (fetched.hooked hooks) short expands (Rvc.expand_even expanded),
        fetch, rvcStep, expanded]

end Steps

/-- A machine at reset with `hw` at the start of RAM. -/
def halfwordMachine (hw : U16) : EmuMachine Unit :=
  { emuMachineInit () with
    ram := fun j => if j = 0 then hw.setWidth 8 else if j = 1 then (hw >>> 8).setWidth 8 else 0 }

end Riscmulator
