import Riscmulator.Outcomes
import Riscmulator.TrapReturn

/-! Dirty tracking of the floating-point state: `mstatus.FS` after an instruction
that changes a floating-point register or `fcsr`. -/

namespace Riscmulator

open BitField

variable {δ : Type}

/-! ### Floating-point state -/

def rvXstateOff : BitVec 2 := 0b00
def rvXstateDirty : BitVec 2 := 0b11

/-- `mstatus.FS`, an `enum rv_xstate`. -/
def rvStatusFs (cpu : RvCpu) : BitVec 2 := (cpu.csr.mstatus >>> rvStatusFsBaseBit).setWidth 2

/-- What a context switch of the floating-point unit looks at. -/
def RvCpu.fp (cpu : RvCpu) : (BitVec 5 → U64) × U64 × BitVec 2 :=
  (cpu.fregs, cpu.csr.fcsr, rvStatusFs cpu)

structure FpSame (cpu cpu' : RvCpu) : Prop where
  fregs : cpu'.fregs = cpu.fregs
  fcsr : cpu'.csr.fcsr = cpu.csr.fcsr

/-- FS is Dirty if a floating-point register or `fcsr` has changed. -/
def FpTracked (cpu cpu' : RvCpu) : Prop := ¬FpSame cpu cpu' → rvStatusFs cpu' = rvXstateDirty

/-! ### Words that write it -/

/-- The CSR instruction writes, not only reads. -/
def CsrStores (insn : U32) : Prop :=
  (rvInsnFunct3 insn).getLsbD 2 = true ∨ rvInsnFunct3 insn &&& 3 = 1 ∨ rvInsnRs1 insn ≠ 0

/-- The CSR instruction writes bits under the mask: it replaces them, or its operand
can set or clear some of them. -/
def CsrMoves (insn : U32) (mask : U64) : Prop :=
  rvInsnFunct3 insn &&& 3 = 1 ∨
    if (rvInsnFunct3 insn).getLsbD 2 then (rvInsnRs1 insn).setWidth 64 &&& mask ≠ 0
    else rvInsnRs1 insn ≠ 0

/-- FSGNJ.D of a register with itself: it writes what it reads. -/
structure SgnjOwn (insn : U32) (f64 : Bool) : Prop where
  double : f64 = true
  plain : rvInsnFunct3 insn = 0
  rs1 : rvInsnRs1 insn = rvInsnRd insn
  rs2 : rvInsnRs2 insn = rvInsnRd insn

/-- The OP-FP words that write a floating-point register or raise flags. -/
inductive FpOpWrites (insn : U32) (f64 : Bool) : Prop
  | compare (op : rvInsnFunct5 insn = 0b10100) (listed : rvInsnFunct3 insn < 3)
  | sgnj (op : rvInsnFunct5 insn = 0b00100) (listed : rvInsnFunct3 insn < 3)
      (moves : ¬SgnjOwn insn f64)
  | minMax (op : rvInsnFunct5 insn = 0b00101)
  /-- FCLASS, whose word differs from FMV.X in `funct3`. -/
  | classify (op : rvInsnFunct5 insn = 0b11100) (funct3 : rvInsnFunct3 insn = 1)
  /-- The other operations of `rv_float_op_fp` with a rounding mode, FMV.X excepted. -/
  | rounded (op : rvInsnFunct5 insn ∈ [0b00000, 0b00001, 0b00010, 0b00011, 0b01011, 0b01000,
      0b11010, 0b11000, 0b11110])

/-- The words that can write a floating-point register or `fcsr`. -/
inductive FpWrites (insn : U32) : Prop
  | load (form : rvOpMajOf insn = some .loadFp) (size : rvInsnFunct3 insn &&& 6 = 2)
  | opFp {f64 : Bool} (form : rvOpMajOf insn = some .opFp)
      (format : rvFloatFormat insn = some f64) (writes : FpOpWrites insn f64)
  | fused {f64 : Bool} (form : rvOpMajOf insn ∈ [some .madd, some .nmadd, some .msub, some .nmsub])
      (format : rvFloatFormat insn = some f64)
  | fcsr (form : IsCsrInsn insn) (index : rvCsrOfIndex (rvInsnUimm12 insn).toNat = some .fcsr)
      (stores : CsrStores insn)
  | fflags (form : IsCsrInsn insn) (index : rvCsrOfIndex (rvInsnUimm12 insn).toNat = some .fflags)
      (moves : CsrMoves insn rvFflagsMask)
  | frm (form : IsCsrInsn insn) (index : rvCsrOfIndex (rvInsnUimm12 insn).toNat = some .frm)
      (moves : CsrMoves insn rvFrmMask)

/-! ### What an instruction can change -/

section Changes

variable {mc : EmuConfig δ} {m m' : EmuMachine δ} {h : Nat} {insn : U32} {cpu cpu' : RvCpu}

theorem FpSame.refl (cpu : RvCpu) : FpSame cpu cpu := ⟨rfl, rfl⟩

theorem FpSame.trans {first second third : RvCpu} (left : FpSame first second)
    (right : FpSame second third) : FpSame first third :=
  ⟨right.fregs.trans left.fregs, right.fcsr.trans left.fcsr⟩

theorem CoreFrame.fpSame (frame : CoreFrame cpu cpu') : FpSame cpu cpu' :=
  ⟨frame.fregs, by rw [frame.csr]⟩

theorem fpSame_xreg (cpu : RvCpu) (index : BitVec 5) (value : U64) :
    FpSame cpu (rvXregWrite cpu index value) := by
  unfold rvXregWrite
  split <;> exact ⟨rfl, rfl⟩

theorem rvStatusFs_on : rvCheckXs cpu.csr.mstatus rvStatusFsBaseBit = true ↔
    rvStatusFs cpu ≠ rvXstateOff := by
  have low : ∀ bits : U64, bits &&& 3 = (bits.setWidth 2).setWidth 64 := by
    intro bits
    apply BitVec.eq_of_toNat_eq
    have mask : (3 : U64).toNat = 2 ^ 2 - 1 := rfl
    rw [BitVec.toNat_and, mask, Nat.and_two_pow_sub_one_eq_mod, BitVec.toNat_setWidth,
      BitVec.toNat_setWidth]
    omega
  have zero : ∀ field : BitVec 2, field.setWidth 64 ≠ 0#64 ↔ field ≠ rvXstateOff := by decide
  rw [rvCheckXs, decide_eq_true_iff, low]
  exact zero _

/-! OP-FP. -/

theorem rvFloatCompare_listed {f64 : Bool} (computed : rvFloatCompare mc cpu insn f64 = some cpu') :
    rvInsnFunct3 insn < 3 := by
  simp only [rvFloatCompare] at computed
  split at computed
  · next listed => rw [listed]; decide
  · next listed => rw [listed]; decide
  · next listed => rw [listed]; decide
  · cases computed

theorem rvFloatSgnj_listed {f64 : Bool} (computed : rvFloatSgnj cpu insn f64 = some cpu') :
    rvInsnFunct3 insn < 3 := by
  simp only [rvFloatSgnj] at computed
  split at computed
  · next listed => rw [listed]; decide
  · next listed => rw [listed]; decide
  · next listed => rw [listed]; decide
  · cases computed

/-- The operand `lhs` with a sign made from that of `rhs`. -/
def sgnjValue (funct3 : BitVec 3) (f64 : Bool) (lhs rhs : U64) : U64 :=
  let res := if f64 then lhs else boxF32 (lowF32 lhs)
  let signBit := if f64 then bit 63 else bit 31
  if funct3 = 0 then (res &&& ~~~signBit) ||| (rhs &&& signBit)
  else if funct3 = 1 then (res &&& ~~~signBit) ||| (~~~rhs &&& signBit)
  else res ^^^ (rhs &&& signBit)

theorem rvFloatSgnj_eq (cpu : RvCpu) (f64 : Bool) (listed : rvInsnFunct3 insn < 3) :
    rvFloatSgnj cpu insn f64 = some (rvFregWrite cpu (rvInsnRd insn)
      (sgnjValue (rvInsnFunct3 insn) f64 (rvFregReadAs cpu f64 (rvInsnRs1 insn))
        (rvFregReadAs cpu f64 (rvInsnRs2 insn)))) := by
  have cases : ∀ funct3 : BitVec 3, funct3 < 3 → funct3 = 0 ∨ funct3 = 1 ∨ funct3 = 2 := by decide
  unfold rvFloatSgnj
  rcases cases _ listed with known | known | known <;> rw [known] <;> rfl

theorem SgnjOwn.same {f64 : Bool} (own : SgnjOwn insn f64)
    (computed : rvFloatSgnj cpu insn f64 = some cpu') : FpSame cpu cpu' := by
  have listed := rvFloatSgnj_listed computed
  rcases own with ⟨rfl, plain, rs1, rs2⟩
  rw [rvFloatSgnj_eq cpu true listed, plain, rs1, rs2, Option.some.injEq] at computed
  have value : sgnjValue 0 true (cpu.fregs (rvInsnRd insn)) (cpu.fregs (rvInsnRd insn)) =
      cpu.fregs (rvInsnRd insn) := by
    have own := replace_own (cpu.fregs (rvInsnRd insn)) (bit 63)
    rwa [BitVec.and_assoc, BitVec.and_self] at own
  rw [← computed]
  refine ⟨?_, rfl⟩
  exact (congrArg (Function.update cpu.fregs (rvInsnRd insn)) value).trans
    (Function.update_eq_self _ _)

/-- FMV.X leaves the floating-point state alone. -/
theorem rvFloatMvxf_same (env : FpEnv) (f64 : Bool) (moves : rvInsnFunct3 insn ≠ 1) :
    FpSame cpu (rvAccrue (rvFloatMvxfFclass mc cpu insn f64).1
      (if env.soft then (rvFloatMvxfFclass mc cpu insn f64).2.soft
        else (rvFloatMvxfFclass mc cpu insn f64).2.host)) := by
  have moved : FpSame cpu (rvFloatMvxfFclass mc cpu insn f64).1 := fpSame_xreg _ _ _
  have flags : (rvFloatMvxfFclass mc cpu insn f64).2 = .ofHost 0 := by
    simp only [rvFloatMvxfFclass, moves, if_false]
  have raised : (if env.soft then (FpFlags.ofHost 0).soft else (FpFlags.ofHost 0).host) = 0 := by
    split <;> rfl
  rw [flags, raised]
  refine moved.trans ⟨rfl, ?_⟩
  simp [rvAccrue, RvCpu.withCsr]

theorem FpComputes.fp {f64 : Bool} (computes : FpComputes mc m h insn f64 m') :
    FpSame (m.cpus h) (m'.cpus h) ∨ FpOpWrites insn f64 := by
  cases computes with
  | compare op computed => exact Or.inr (.compare op (rvFloatCompare_listed computed))
  | sgnj op computed =>
      by_cases own : SgnjOwn insn f64
      · rw [EmuMachine.setCpu_same]
        exact Or.inl (own.same computed)
      · exact Or.inr (.sgnj op (rvFloatSgnj_listed computed) own)
  | minMax op legal => exact Or.inr (.minMax op)
  | @rounded env out chosen computed =>
      by_cases moved : rvInsnFunct5 insn = 0b11100
      · by_cases classify : rvInsnFunct3 insn = 1
        · exact Or.inr (.classify moved classify)
        left
        simp only [rvFloatRounded, moved] at computed
        have result : rvFloatMvxfFclass mc (m.cpus h) insn f64 = out := Option.some.inj computed
        rw [← result, rvFloatFinish, EmuMachine.setCpu_same]
        exact rvFloatMvxf_same env f64 classify
      · right
        apply FpOpWrites.rounded
        unfold rvFloatRounded at computed
        split at computed
        all_goals simp_all

/-! CSR instructions. -/

/-- A word that writes the floating-point state left `mstatus` and the privilege alone. -/
structure FpWritten (cpu cpu' : RvCpu) (insn : U32) : Prop where
  writes : FpWrites insn
  on : rvStatusFs cpu ≠ rvXstateOff
  mstatus : cpu'.csr.mstatus = cpu.csr.mstatus
  privilege : cpu'.privilege = cpu.privilege

theorem doCsrSource_stores : (doCsrSource cpu insn).2 = true ↔ CsrStores insn := by
  unfold doCsrSource CsrStores
  by_cases immediate : (rvInsnFunct3 insn).getLsbD 2 = true
  · simp only [immediate, if_true, true_or]
  · simp only [immediate, Bool.false_eq_true, if_false, false_or, Bool.or_eq_true,
      decide_eq_true_eq]

/-- The value read, under a mask that the operand does not move. -/
theorem InsnWrites.unmoved {reg : RvCsr} {wdata mask : U64}
    (writes : InsnWrites cpu insn reg wdata) (unmoved : ¬CsrMoves insn mask) :
    ∃ rdata, rvCsrReadReg cpu reg = some rdata ∧ wdata &&& mask = rdata &&& mask := by
  rcases writes with ⟨form, stores, ⟨level, index⟩, rdata, read, rfl⟩
  rw [doCsrSource_stores] at stores
  unfold CsrMoves at unmoved
  push Not at unmoved
  rcases unmoved with ⟨replaces, operand⟩
  have immediate : (rvInsnFunct3 insn).getLsbD 2 = true := by
    by_contra register
    rw [if_neg register] at operand
    rcases stores with immediate | replaces' | nonzero
    · exact register immediate
    · exact replaces replaces'
    · exact operand nonzero
  rw [if_pos immediate, not_not] at operand
  have source : (doCsrSource cpu insn).1 = (rvInsnRs1 insn).setWidth 64 := by
    rw [doCsrSource]
    simp only [immediate, if_true]
  refine ⟨rdata, ?_, ?_⟩
  · rw [doCsrRead, if_pos (Or.inr replaces), rvCsrRead, if_neg (Nat.not_lt.mpr level), index] at read
    exact read
  · rw [source]
    generalize (rvInsnRs1 insn).setWidth 64 = u at operand
    have cases : ∀ op : BitVec 3, op &&& 3 ≠ 0 → op &&& 3 ≠ 1 → op &&& 3 = 2 ∨ op &&& 3 = 3 := by
      decide
    rcases cases _ form.2 replaces with set | clear
    · have value : doCsrWdata insn rdata u = rdata ||| u := by
        simp only [doCsrWdata, set]
        rfl
      rw [value, BitVec.and_or_distrib_right, operand]
      exact BitVec.or_zero
    · have value : doCsrWdata insn rdata u = rdata &&& ~~~u := by
        simp only [doCsrWdata, clear]
        rfl
      have outside : mask &&& ~~~u = mask := by
        apply and_not_of_and_zero
        rw [BitVec.and_comm, operand]
      rw [value, BitVec.and_assoc, BitVec.and_comm (~~~u), outside]

theorem frm_own (fcsr : U64) :
    (fcsr &&& ~~~(rvFrmMask <<< rvFcsrFrmBaseBit)) |||
      ((((fcsr >>> rvFcsrFrmBaseBit) &&& rvFrmMask) &&& rvFrmMask) <<< rvFcsrFrmBaseBit) = fcsr := by
  rw [BitVec.and_assoc, BitVec.and_self]
  apply BitVec.eq_of_getLsbD_eq
  intro i inside
  rw [BitVec.getLsbD_or, getLsbD_and_not, BitVec.getLsbD_shiftLeft, BitVec.getLsbD_shiftLeft,
    BitVec.getLsbD_and, BitVec.getLsbD_ushiftRight]
  by_cases below : i < rvFcsrFrmBaseBit
  · simp [below]
  · have same : rvFcsrFrmBaseBit + (i - rvFcsrFrmBaseBit) = i := by omega
    rw [same]
    cases fcsr.getLsbD i <;> cases rvFrmMask.getLsbD (i - rvFcsrFrmBaseBit) <;> simp [below, inside]

theorem rvCsrWriteReg_fpSame {reg : RvCsr} {wdata : U64}
    (other : reg ∉ [RvCsr.fcsr, .fflags, .frm])
    (stored : rvCsrWriteReg cpu reg wdata = some cpu') : FpSame cpu cpu' := by
  cases reg <;> simp only [rvCsrWriteReg] at stored <;> (try split_ifs at stored) <;>
    cases stored <;> first | exact ⟨rfl, rfl⟩ | exact absurd (by decide) other

theorem InsnWrites.fp {reg : RvCsr} {wdata : U64} (writes : InsnWrites cpu insn reg wdata)
    (stored : rvCsrWriteReg cpu reg wdata = some cpu') :
    FpSame cpu cpu' ∨ FpWritten cpu cpu' insn := by
  have index := writes.2.2.1.2
  have stores := doCsrSource_stores.mp writes.2.1
  cases reg with
  | fcsr =>
      simp only [rvCsrWriteReg] at stored
      split at stored
      · next on =>
          cases stored
          exact Or.inr ⟨.fcsr writes.1 index stores, rvStatusFs_on.mp on, rfl, rfl⟩
      · cases stored
  | fflags =>
      simp only [rvCsrWriteReg] at stored
      split at stored
      · next on =>
          cases stored
          by_cases moves : CsrMoves insn rvFflagsMask
          · exact Or.inr ⟨.fflags writes.1 index moves, rvStatusFs_on.mp on, rfl, rfl⟩
          · rcases writes.unmoved moves with ⟨rdata, read, same⟩
            rw [rvCsrReadReg, if_pos on, Option.some.injEq] at read
            refine Or.inl ⟨rfl, ?_⟩
            simp only [RvCpu.withCsr]
            rw [same, ← read, replace_own]
      · cases stored
  | frm =>
      simp only [rvCsrWriteReg] at stored
      split at stored
      · next on =>
          cases stored
          by_cases moves : CsrMoves insn rvFrmMask
          · exact Or.inr ⟨.frm writes.1 index moves, rvStatusFs_on.mp on, rfl, rfl⟩
          · rcases writes.unmoved moves with ⟨rdata, read, same⟩
            rw [rvCsrReadReg, if_pos on, Option.some.injEq] at read
            refine Or.inl ⟨rfl, ?_⟩
            simp only [RvCpu.withCsr]
            rw [same, ← read, frm_own]
      · cases stored
  | _ => exact Or.inl (rvCsrWriteReg_fpSame (by simp) stored)

/-! Words. -/

def ExecOutcome.machine : ExecOutcome δ → EmuMachine δ
  | .next m => m
  | .trap m _ => m

theorem RegsOnly.written (regs : RegsOnly cpu cpu') (writes : FpWrites insn)
    (on : rvCheckXs cpu.csr.mstatus rvStatusFsBaseBit = true) : FpWritten cpu cpu' insn := by
  rcases regs with ⟨_, _, _, rfl⟩
  exact ⟨writes, rvStatusFs_on.mp on, rfl, rfl⟩

/-- Before a trap is taken, a word has left the floating-point state alone, or it is
one that writes it. -/
theorem Executes.fp {out : ExecOutcome δ} (executes : Executes mc m h insn out) :
    FpSame (m.cpus h) (out.machine.cpus h) ∨
      FpWritten (m.cpus h) (out.machine.cpus h) insn := by
  cases executes with
  | kept kept => exact Or.inl (kept h).fpSame
  | @xreg m' kept value =>
      left
      rw [ExecOutcome.machine, EmuMachine.writeXreg, EmuMachine.setCpu_same]
      exact (kept h).fpSame.trans (fpSame_xreg _ _ _)
  | jump value target even =>
      left
      rw [ExecOutcome.machine, EmuMachine.setPc, EmuMachine.setCpu_same, EmuMachine.writeXreg,
        EmuMachine.setCpu_same]
      exact (fpSame_xreg _ _ _).trans ⟨rfl, rfl⟩
  | branch target even =>
      left
      rw [ExecOutcome.machine, EmuMachine.setPc, EmuMachine.setCpu_same]
      exact ⟨rfl, rfl⟩
  | @fpLoad m' kept form legal value =>
      right
      rw [rvFpAccessIllegal, (opMaj_float form).2 (Or.inl rfl), Bool.true_and, Bool.or_eq_false_iff,
        Bool.not_eq_false', decide_eq_false_iff_not, not_not] at legal
      rw [ExecOutcome.machine, EmuMachine.setCpu_same]
      refine ⟨.load form legal.2, rvStatusFs_on.mp legal.1, ?_, (kept h).privilege⟩
      rw [rvFregWrite, (kept h).csr]
  | @opFp f64 m' form format computes =>
      rcases computes.fp with same | writes
      · exact Or.inl same
      · exact Or.inr (computes.regs.written (.opFp form format.format writes) format.on)
  | fused form format chosen =>
      right
      rw [ExecOutcome.machine, rvFloatFinish, EmuMachine.setCpu_same]
      apply RegsOnly.written _ (.fused form format.format) format.on
      exact (rvFloatFused_regs _ _ _).trans (regsOnly_accrue _ _)
  | @csr rdata cpu form read written =>
      rw [ExecOutcome.machine, EmuMachine.setCpu_same]
      have moved : FpSame cpu (rvXregWrite cpu (rvInsnRd insn) rdata) := fpSame_xreg _ _ _
      rcases doCsrWrite_cases form read written with rfl | ⟨reg, wdata, writes, stored⟩
      · exact Or.inl moved
      rcases writes.fp stored with same | fp
      · exact Or.inl (same.trans moved)
      · refine Or.inr ⟨fp.writes, fp.on, ?_, ?_⟩
        · rw [rvXregWrite_csr, fp.mstatus]
        · rw [← fp.privilege]
          unfold rvXregWrite
          split <;> rfl
  | mret word machine =>
      left
      rw [ExecOutcome.machine, EmuMachine.setCpu_same]
      exact ⟨rfl, rfl⟩
  | sret word legal =>
      left
      rw [ExecOutcome.machine, EmuMachine.setCpu_same]
      exact ⟨rfl, rfl⟩
  | abort level => exact Or.inl (FpSame.refl _)
  | trap kept epc exception => exact Or.inl (kept h).fpSame
  | minMax form format op illegal =>
      right
      rw [ExecOutcome.machine, EmuMachine.setCpu_same]
      exact (rvFloatMinMax_regs _ _ _).written (.opFp form format.format (.minMax op)) format.on

/-! Traps. -/

theorem rvStatusFs_getLsbD (cpu : RvCpu) {i : Nat} (inside : i < 2) :
    (rvStatusFs cpu).getLsbD i = cpu.csr.mstatus.getLsbD (rvStatusFsBaseBit + i) := by
  rw [rvStatusFs, BitVec.getLsbD_setWidth, decide_eq_true inside, Bool.true_and,
    BitVec.getLsbD_ushiftRight]

theorem rvStatusFs_dirty : rvStatusFs cpu = rvXstateDirty ↔
    ∀ i < 2, cpu.csr.mstatus.getLsbD (rvStatusFsBaseBit + i) = true := by
  have both : ∀ field : BitVec 2, field = rvXstateDirty ↔ ∀ i < 2, field.getLsbD i = true := by
    decide
  rw [both]
  constructor
  · intro set i inside
    rw [← rvStatusFs_getLsbD cpu inside]
    exact set i inside
  · intro set i inside
    rw [rvStatusFs_getLsbD cpu inside]
    exact set i inside

/-- Entering a trap only adds to FS, whatever the privilege is. -/
theorem rvTrapEnter_dirty (trap : RvTrap) (dirty : rvStatusFs cpu = rvXstateDirty) :
    rvStatusFs (rvTrapEnter cpu trap) = rvXstateDirty := by
  rw [rvStatusFs_dirty] at dirty ⊢
  intro i inside
  have set := dirty i inside
  have cases : i = 0 ∨ i = 1 := by omega
  unfold rvTrapEnter
  split
  · simp only [rvTrapEnterS, rvSyncMemPrivilege_csr, rvTrapMstatusS, bit, BitVec.getLsbD_or,
      getLsbD_clearBit, set]
    rcases cases with rfl | rfl <;> simp [rvStatusFsBaseBit, rvStatusSpieBit, rvStatusSieBit,
      rvStatusSppBit]
  · simp only [rvTrapEnterM, rvSyncMemPrivilege_csr, rvTrapMstatusM, bit, BitVec.getLsbD_or,
      getLsbD_clearBit, clearMpp_getLsbD, set]
    rcases cases with rfl | rfl <;> simp [rvStatusFsBaseBit, rvStatusMpieBit, rvStatusMieBit]

/-- From a level that exists, entering a trap leaves FS alone. -/
theorem rvTrapEnter_fs (trap : RvTrap) (level : cpu.privilege ≤ 3) :
    rvStatusFs (rvTrapEnter cpu trap) = rvStatusFs cpu := by
  apply BitVec.eq_of_getLsbD_eq
  intro i inside
  have cases : i = 0 ∨ i = 1 := by omega
  rw [rvStatusFs_getLsbD _ inside, rvStatusFs_getLsbD _ inside]
  unfold rvTrapEnter
  split
  · next delegated =>
      have low : cpu.privilege ≤ 1 := by
        rw [rvTrapDelegated, Bool.and_eq_true, decide_eq_true_eq] at delegated
        exact delegated.1
      simp only [rvTrapEnterS, rvSyncMemPrivilege_csr, rvTrapMstatusS_getLsbD _ low]
      rcases cases with rfl | rfl <;> rfl
  · simp only [rvTrapEnterM, rvSyncMemPrivilege_csr, rvTrapMstatusM_getLsbD _ level]
    rcases cases with rfl | rfl <;> rfl

theorem rvTrapEnter_fpSame (cpu : RvCpu) (trap : RvTrap) : FpSame cpu (rvTrapEnter cpu trap) := by
  unfold rvTrapEnter
  split <;> exact ⟨rfl, rfl⟩

theorem rvDoTrap_fp (hooks : mc.HooksKeep RvCpu.fp) (m : EmuMachine δ) (h : Nat) (trap : RvTrap) :
    FpSame (m.cpus h) ((rvDoTrap mc m h trap).cpus h) ∧
      (rvStatusFs (m.cpus h) = rvXstateDirty →
        rvStatusFs ((rvDoTrap mc m h trap).cpus h) = rvXstateDirty) := by
  have enter : ∀ m' : EmuMachine δ, (m'.cpus h).fp = (m.cpus h).fp →
      FpSame (m.cpus h) ((m'.setCpu h (rvTrapEnter (m'.cpus h) trap)).cpus h) ∧
        (rvStatusFs (m.cpus h) = rvXstateDirty →
          rvStatusFs ((m'.setCpu h (rvTrapEnter (m'.cpus h) trap)).cpus h) = rvXstateDirty) := by
    intro m' same
    rw [RvCpu.fp, RvCpu.fp, Prod.mk.injEq, Prod.mk.injEq] at same
    rw [EmuMachine.setCpu_same]
    refine ⟨FpSame.trans ⟨same.1, same.2.1⟩ (rvTrapEnter_fpSame _ _), fun dirty => ?_⟩
    exact rvTrapEnter_dirty trap (same.2.2.trans dirty)
  simp only [rvDoTrap]
  split
  · exact enter m rfl
  split
  · exact enter m rfl
  · next hook found =>
      have kept := hooks _ hook found m h trap h
      split
      · exact enter _ kept
      · rw [RvCpu.fp, RvCpu.fp, Prod.mk.injEq, Prod.mk.injEq] at kept
        exact ⟨⟨kept.1, kept.2.1⟩, fun dirty => kept.2.2.trans dirty⟩

/-- Any instruction tracks its changes if FS is Dirty or Off, or it writes nothing. -/
theorem rvForcefeedInsn_tracked (hooks : mc.HooksKeep RvCpu.fp) (m : EmuMachine δ) (h : Nat)
    (meets : rvStatusFs (m.cpus h) = rvXstateDirty ∨ rvStatusFs (m.cpus h) = rvXstateOff ∨
      ¬FpWrites insn) : FpTracked (m.cpus h) ((rvForcefeedInsn mc m h insn).cpus h) := by
  rcases rvForcefeedInsn_executes mc m h insn with ⟨out, executes, finished⟩
  have finish : FpSame (out.machine.cpus h) ((out.finish mc h).cpus h) ∧
      (rvStatusFs (out.machine.cpus h) = rvXstateDirty →
        rvStatusFs ((out.finish mc h).cpus h) = rvXstateDirty) := by
    cases out with
    | next m' => exact ⟨FpSame.refl _, id⟩
    | trap m' raised => exact rvDoTrap_fp hooks m' h raised
  rw [finished]
  intro changed
  rcases executes.fp with same | fp
  · exact absurd (same.trans finish.1) changed
  · apply finish.2
    rcases meets with dirty | off | reads
    · rwa [rvStatusFs, fp.mstatus]
    · exact absurd off fp.on
    · exact absurd fp.writes reads

end Changes

end Riscmulator
