import Riscmulator.BusFrames
import Riscmulator.CsrWrite
import Riscmulator.Frames
import Riscmulator.Step

/-! What executing one instruction word comes to: an effect on data alone, a
trap, a CSR write, a return from a trap, or the host's `abort`. -/

namespace Riscmulator

variable {δ : Type}

/-! ### Effects on data -/

/-- Two states of a core with the same control registers and privileges. -/
structure SameControl (cpu cpu' : RvCpu) : Prop where
  csr : ∃ fcsr, cpu'.csr = { cpu.csr with fcsr := fcsr }
  privilege : cpu'.privilege = cpu.privilege
  memPrivilege : cpu'.memPrivilege = cpu.memPrivilege

theorem SameControl.refl (cpu : RvCpu) : SameControl cpu cpu := ⟨⟨_, rfl⟩, rfl, rfl⟩

theorem SameControl.trans {first second third : RvCpu} (left : SameControl first second)
    (right : SameControl second third) : SameControl first third := by
  rcases left.csr with ⟨fcsr, csr⟩
  rcases right.csr with ⟨fcsr', csr'⟩
  refine ⟨⟨fcsr', ?_⟩, right.privilege.trans left.privilege,
    right.memPrivilege.trans left.memPrivilege⟩
  rw [csr', csr]

theorem CoreFrame.sameControl {cpu cpu' : RvCpu} (frame : CoreFrame cpu cpu') :
    SameControl cpu cpu' :=
  ⟨⟨cpu.csr.fcsr, frame.csr⟩, frame.privilege, frame.memPrivilege⟩

/-- A step that changes data only. Reservations, RAM and devices are free. -/
structure DataStep (m m' : EmuMachine δ) : Prop where
  core : ∀ i, SameControl (m.cpus i) (m'.cpus i)
  aborted : m'.aborted = m.aborted

theorem DataStep.refl (m : EmuMachine δ) : DataStep m m := ⟨fun _ => SameControl.refl _, rfl⟩

theorem DataStep.trans {first second third : EmuMachine δ} (left : DataStep first second)
    (right : DataStep second third) : DataStep first third :=
  ⟨fun i => (left.core i).trans (right.core i), right.aborted.trans left.aborted⟩

theorem VirtFrame.dataStep {h : Nat} {m m' : EmuMachine δ} (frame : VirtFrame h m m') :
    DataStep m m' :=
  ⟨fun i => (frame.core i).sameControl, frame.aborted⟩

theorem dataStep_setCpu (m : EmuMachine δ) {h : Nat} {cpu : RvCpu}
    (same : SameControl (m.cpus h) cpu) : DataStep m (m.setCpu h cpu) := by
  refine ⟨fun i => ?_, rfl⟩
  by_cases mine : i = h
  · subst mine
    rw [EmuMachine.setCpu_same]
    exact same
  · rw [EmuMachine.setCpu_other _ _ mine]
    exact SameControl.refl _

theorem sameControl_xreg (cpu : RvCpu) (index : BitVec 5) (value : U64) :
    SameControl cpu (rvXregWrite cpu index value) := by
  unfold rvXregWrite
  split
  · exact ⟨⟨_, rfl⟩, rfl, rfl⟩
  · exact SameControl.refl cpu

/-- A core that computes: control registers and interrupt lines stay. -/
structure CoreWork (cpu cpu' : RvCpu) : Prop where
  control : SameControl cpu cpu'
  lines : SameLines cpu cpu'

theorem CoreWork.refl (cpu : RvCpu) : CoreWork cpu cpu := ⟨SameControl.refl cpu, SameLines.refl cpu⟩

theorem CoreWork.trans {first second third : RvCpu} (left : CoreWork first second)
    (right : CoreWork second third) : CoreWork first third :=
  ⟨left.control.trans right.control, left.lines.trans right.lines⟩

theorem coreWork_pc (cpu : RvCpu) (pc epc : U64) :
    CoreWork cpu { cpu with pc := pc, epc := epc } := ⟨⟨⟨_, rfl⟩, rfl, rfl⟩, rfl, rfl⟩

theorem coreWork_tlb (cpu : RvCpu) (tlb : RvTlb) : CoreWork cpu { cpu with tlb := tlb } :=
  ⟨⟨⟨_, rfl⟩, rfl, rfl⟩, rfl, rfl⟩

/-- Integer registers, floating-point registers and `fcsr` may differ, nothing else. -/
def RegsOnly (cpu cpu' : RvCpu) : Prop :=
  ∃ xregs fregs fcsr,
    cpu' = { cpu with xregs := xregs, fregs := fregs, csr := { cpu.csr with fcsr := fcsr } }

theorem RegsOnly.refl (cpu : RvCpu) : RegsOnly cpu cpu := ⟨_, _, _, rfl⟩

theorem RegsOnly.trans {first second third : RvCpu} (left : RegsOnly first second)
    (right : RegsOnly second third) : RegsOnly first third := by
  rcases left with ⟨_, _, _, rfl⟩
  rcases right with ⟨xregs, fregs, fcsr, rfl⟩
  exact ⟨xregs, fregs, fcsr, rfl⟩

theorem RegsOnly.coreWork {cpu cpu' : RvCpu} (regs : RegsOnly cpu cpu') : CoreWork cpu cpu' := by
  rcases regs with ⟨_, _, _, rfl⟩
  exact ⟨⟨⟨_, rfl⟩, rfl, rfl⟩, rfl, rfl⟩

theorem regsOnly_xreg (cpu : RvCpu) (index : BitVec 5) (value : U64) :
    RegsOnly cpu (rvXregWrite cpu index value) := by
  unfold rvXregWrite
  split
  · exact ⟨_, _, _, rfl⟩
  · exact RegsOnly.refl cpu

theorem regsOnly_freg (cpu : RvCpu) (index : BitVec 5) (value : U64) :
    RegsOnly cpu (rvFregWrite cpu index value) := ⟨_, _, _, rfl⟩

theorem regsOnly_accrue (cpu : RvCpu) (flags : U64) : RegsOnly cpu (rvAccrue cpu flags) :=
  ⟨_, _, _, rfl⟩

theorem rvSfenceVma_work (cpu : RvCpu) (insn : U32) : CoreWork cpu (rvSfenceVma cpu insn) := by
  unfold rvSfenceVma rvInvalTlb
  split_ifs
  · exact CoreWork.refl cpu
  · exact coreWork_tlb _ _
  · exact coreWork_tlb _ _
  · exact coreWork_tlb _ _

/-- What hart `h` does to the machine while it fetches and executes, traps and
CSR writes apart: accesses, computation and reservations, one after another. -/
inductive Work (mc : EmuConfig δ) (h : Nat) (first : EmuMachine δ) : EmuMachine δ → Prop
  | refl : Work mc h first first
  | access {m : EmuMachine δ} (before : Work mc h first m) (vaddr data : U64) (sizeExp : Fin 4)
      (mode : RvAccess) : Work mc h first (rvAccessVirt mc m h vaddr data sizeExp mode).machine
  | core {m : EmuMachine δ} (before : Work mc h first m) {cpu : RvCpu}
      (same : CoreWork (m.cpus h) cpu) : Work mc h first (m.setCpu h cpu)
  | reserve {m : EmuMachine δ} (before : Work mc h first m) (reservations : Nat → RvReservation) :
      Work mc h first { m with reservations := reservations }
  | round {m : EmuMachine δ} (before : Work mc h first m) (mode : FeRound) :
      Work mc h first (m.setFeround h mode)

theorem rvAccessVirt_work (mc : EmuConfig δ) (m : EmuMachine δ) (h : Nat) (vaddr data : U64)
    (sizeExp : Fin 4) (mode : RvAccess) :
    Work mc h m (rvAccessVirt mc m h vaddr data sizeExp mode).machine :=
  .access .refl vaddr data sizeExp mode

theorem Work.trans {mc : EmuConfig δ} {h : Nat} {first middle last : EmuMachine δ}
    (left : Work mc h first middle) (right : Work mc h middle last) : Work mc h first last := by
  induction right with
  | refl => exact left
  | access _ vaddr data sizeExp mode ih => exact ih.access vaddr data sizeExp mode
  | core _ same ih => exact ih.core same
  | reserve _ reservations ih => exact ih.reserve reservations
  | round _ mode ih => exact ih.round mode

theorem Work.dataStep {mc : EmuConfig δ} {h : Nat} {m m' : EmuMachine δ} (work : Work mc h m m') :
    DataStep m m' := by
  induction work with
  | refl => exact DataStep.refl m
  | access _ vaddr data sizeExp mode ih =>
      exact ih.trans (rvAccessVirt_frame mc _ h vaddr data sizeExp mode).dataStep
  | core _ same ih => exact ih.trans (dataStep_setCpu _ same.control)
  | reserve _ reservations ih => exact ⟨ih.core, ih.aborted⟩
  | round _ mode ih => exact ⟨ih.core, ih.aborted⟩

/-- While a hart works, the devices and the interrupt lines change only as the
callbacks of the regions it accesses change them. -/
theorem Work.bus {mc : EmuConfig δ} {h : Nat} {m m' : EmuMachine δ} (work : Work mc h m m') :
    BusReach mc m.bus m'.bus := by
  induction work with
  | refl => exact .refl
  | access _ vaddr data sizeExp mode ih =>
      exact ih.trans (rvAccessVirt_bus mc _ h vaddr data sizeExp mode)
  | core _ same ih =>
      rw [EmuMachine.bus_setCpu same.lines]
      exact ih
  | reserve _ reservations ih => exact ih
  | round _ mode ih => exact ih

/-- The same in single steps: of a core, register and `pc` writes and fences. -/
inductive MicroSteps (mc : EmuConfig δ) (h : Nat) (first : EmuMachine δ) : EmuMachine δ → Prop
  | refl : MicroSteps mc h first first
  | access {m : EmuMachine δ} (before : MicroSteps mc h first m) (vaddr data : U64)
      (sizeExp : Fin 4) (mode : RvAccess) :
      MicroSteps mc h first (rvAccessVirt mc m h vaddr data sizeExp mode).machine
  | regs {m : EmuMachine δ} (before : MicroSteps mc h first m) {cpu : RvCpu}
      (same : RegsOnly (m.cpus h) cpu) : MicroSteps mc h first (m.setCpu h cpu)
  | pc {m : EmuMachine δ} (before : MicroSteps mc h first m) (pc epc : U64) :
      MicroSteps mc h first (m.setCpu h { m.cpus h with pc := pc, epc := epc })
  | fence {m : EmuMachine δ} (before : MicroSteps mc h first m) (insn : U32) :
      MicroSteps mc h first (m.setCpu h (rvSfenceVma (m.cpus h) insn))
  | reserve {m : EmuMachine δ} (before : MicroSteps mc h first m)
      (reservations : Nat → RvReservation) :
      MicroSteps mc h first { m with reservations := reservations }
  | round {m : EmuMachine δ} (before : MicroSteps mc h first m) (mode : FeRound) :
      MicroSteps mc h first (m.setFeround h mode)

theorem MicroSteps.work {mc : EmuConfig δ} {h : Nat} {m m' : EmuMachine δ}
    (steps : MicroSteps mc h m m') : Work mc h m m' := by
  induction steps with
  | refl => exact .refl
  | access _ vaddr data sizeExp mode ih => exact ih.access vaddr data sizeExp mode
  | regs _ same ih => exact ih.core same.coreWork
  | pc _ pc epc ih => exact ih.core (coreWork_pc _ pc epc)
  | fence _ insn ih => exact ih.core (rvSfenceVma_work _ insn)
  | reserve _ reservations ih => exact ih.reserve reservations
  | round _ mode ih => exact ih.round mode

/-! ### The effects of an instruction -/

/-- The word is one of the six CSR instructions. -/
def IsCsrInsn (insn : U32) : Prop :=
  rvOpMajOf insn = some .system ∧ (rvInsnFunct3 insn &&& 3) ≠ 0

/-- What executing a word on hart `h` can do to the machine. -/
inductive InsnEffect (mc : EmuConfig δ) (m : EmuMachine δ) (h : Nat) (insn : U32) :
    EmuMachine δ → Prop
  | data {m' : EmuMachine δ} (step : DataStep m m') : InsnEffect mc m h insn m'
  | trap {m' : EmuMachine δ} (trap : RvTrap) (step : DataStep m m') :
      InsnEffect mc m h insn (rvDoTrap mc m' h trap)
  | csr {rdata : U64} {cpu : RvCpu} (form : IsCsrInsn insn)
      (read : doCsrRead (m.cpus h) insn = some rdata)
      (written : doCsrWrite (m.cpus h) insn rdata = some cpu) :
      InsnEffect mc m h insn (m.setCpu h (rvXregWrite cpu (rvInsnRd insn) rdata))
  | mret (machine : (m.cpus h).privilege = 3) :
      InsnEffect mc m h insn (m.setCpu h (rvMret (m.cpus h)))
  | sret (legal : rvSupervisorIllegal (m.cpus h) rvStatusTsrBit = false) :
      InsnEffect mc m h insn (m.setCpu h (rvSret (m.cpus h)))
  | abort (level : rvEcallCause (m.cpus h).privilege = none) :
      InsnEffect mc m h insn { m with aborted := true }

/-- The same, with the work of the hart in place of the effect on data. -/
inductive InsnWork (mc : EmuConfig δ) (m : EmuMachine δ) (h : Nat) (insn : U32) :
    EmuMachine δ → Prop
  | data {m' : EmuMachine δ} (work : Work mc h m m') : InsnWork mc m h insn m'
  | trap {m' : EmuMachine δ} (trap : RvTrap) (work : Work mc h m m') :
      InsnWork mc m h insn (rvDoTrap mc m' h trap)
  | csr {rdata : U64} {cpu : RvCpu} (form : IsCsrInsn insn)
      (read : doCsrRead (m.cpus h) insn = some rdata)
      (written : doCsrWrite (m.cpus h) insn rdata = some cpu) :
      InsnWork mc m h insn (m.setCpu h (rvXregWrite cpu (rvInsnRd insn) rdata))
  | mret (machine : (m.cpus h).privilege = 3) :
      InsnWork mc m h insn (m.setCpu h (rvMret (m.cpus h)))
  | sret (legal : rvSupervisorIllegal (m.cpus h) rvStatusTsrBit = false) :
      InsnWork mc m h insn (m.setCpu h (rvSret (m.cpus h)))
  | abort (level : rvEcallCause (m.cpus h).privilege = none) :
      InsnWork mc m h insn { m with aborted := true }

theorem InsnWork.effect {mc : EmuConfig δ} {m m' : EmuMachine δ} {h : Nat} {insn : U32}
    (executed : InsnWork mc m h insn m') : InsnEffect mc m h insn m' := by
  cases executed with
  | data work => exact .data work.dataStep
  | trap trap work => exact .trap trap work.dataStep
  | csr form read written => exact .csr form read written
  | mret machine => exact .mret machine
  | sret legal => exact .sret legal
  | abort level => exact .abort level

/-- The same, with the steps of the hart in place of its work. -/
inductive InsnSteps (mc : EmuConfig δ) (m : EmuMachine δ) (h : Nat) (insn : U32) :
    EmuMachine δ → Prop
  | data {m' : EmuMachine δ} (steps : MicroSteps mc h m m') : InsnSteps mc m h insn m'
  | trap {m' : EmuMachine δ} (trap : RvTrap) (steps : MicroSteps mc h m m') :
      InsnSteps mc m h insn (rvDoTrap mc m' h trap)
  | csr {rdata : U64} {cpu : RvCpu} (form : IsCsrInsn insn)
      (read : doCsrRead (m.cpus h) insn = some rdata)
      (written : doCsrWrite (m.cpus h) insn rdata = some cpu) :
      InsnSteps mc m h insn (m.setCpu h (rvXregWrite cpu (rvInsnRd insn) rdata))
  | mret (machine : (m.cpus h).privilege = 3) :
      InsnSteps mc m h insn (m.setCpu h (rvMret (m.cpus h)))
  | sret (legal : rvSupervisorIllegal (m.cpus h) rvStatusTsrBit = false) :
      InsnSteps mc m h insn (m.setCpu h (rvSret (m.cpus h)))
  | abort (level : rvEcallCause (m.cpus h).privilege = none) :
      InsnSteps mc m h insn { m with aborted := true }

theorem InsnSteps.work {mc : EmuConfig δ} {m m' : EmuMachine δ} {h : Nat} {insn : U32}
    (executed : InsnSteps mc m h insn m') : InsnWork mc m h insn m' := by
  cases executed with
  | data steps => exact .data steps.work
  | trap trap steps => exact .trap trap steps.work
  | csr form read written => exact .csr form read written
  | mret machine => exact .mret machine
  | sret legal => exact .sret legal
  | abort level => exact .abort level

section Effects

variable {mc : EmuConfig δ} {m : EmuMachine δ} {h : Nat} {insn : U32}

theorem Work.writeXreg {m' : EmuMachine δ} (before : Work mc h m m') (index : BitVec 5)
    (value : U64) : Work mc h m (m'.writeXreg h index value) :=
  before.core (regsOnly_xreg _ _ _).coreWork

theorem Work.setPc {m' : EmuMachine δ} (before : Work mc h m m') (pc : U64) :
    Work mc h m (m'.setPc h pc) := before.core (coreWork_pc _ pc _)

theorem MicroSteps.writeXreg {m' : EmuMachine δ} (before : MicroSteps mc h m m')
    (index : BitVec 5) (value : U64) : MicroSteps mc h m (m'.writeXreg h index value) :=
  before.regs (regsOnly_xreg _ _ _)

theorem MicroSteps.setPc {m' : EmuMachine δ} (before : MicroSteps mc h m m') (pc : U64) :
    MicroSteps mc h m (m'.setPc h pc) := before.pc pc _

theorem rvAccessVirt_steps (mc : EmuConfig δ) (m : EmuMachine δ) (h : Nat) (vaddr data : U64)
    (sizeExp : Fin 4) (mode : RvAccess) :
    MicroSteps mc h m (rvAccessVirt mc m h vaddr data sizeExp mode).machine :=
  .access .refl vaddr data sizeExp mode

theorem iillegal_steps {m' : EmuMachine δ} (word : U32) (step : MicroSteps mc h m m') :
    InsnSteps mc m h insn (rvDoIillegal mc m' h word) :=
  .trap _ step

theorem memTrap_steps {m' : EmuMachine δ} (r : RvMemResult) (mode : RvAccess) (addr : U64)
    (step : MicroSteps mc h m m') : InsnSteps mc m h insn (rvMemTrap mc m' h r mode addr) :=
  .trap _ step

theorem rvMuldivOp_steps : InsnSteps mc m h insn (rvMuldivOp mc m h insn) := by
  unfold rvMuldivOp
  split
  · exact iillegal_steps insn .refl
  · exact .data (MicroSteps.refl.writeXreg _ _)

theorem rvBaseOp_steps : InsnSteps mc m h insn (rvBaseOp mc m h insn) := by
  unfold rvBaseOp
  split
  · exact rvMuldivOp_steps
  · exact .data (MicroSteps.refl.writeXreg _ _)

theorem rvBaseLoad_steps : InsnSteps mc m h insn (rvBaseLoad mc m h insn) := by
  simp only [rvBaseLoad]
  split
  · exact iillegal_steps insn .refl
  split
  · exact iillegal_steps insn .refl
  · next sizeExp _ =>
      have loaded := rvAccessVirt_steps mc m h (m.xreg h (rvInsnRs1 insn) + rvInsnImm12 insn) 0
        sizeExp .load
      split
      · exact memTrap_steps _ .load _ loaded
      · split
        · exact .data (loaded.regs (regsOnly_freg _ _ _))
        · exact .data (loaded.writeXreg _ _)

theorem rvBaseStore_steps : InsnSteps mc m h insn (rvBaseStore mc m h insn) := by
  simp only [rvBaseStore]
  generalize (if (rvInsnOpMaj insn).getLsbD 0 then rvFregRead (m.cpus h) (rvInsnRs2 insn)
    else m.xreg h (rvInsnRs2 insn)) = wdata
  split
  · exact iillegal_steps insn .refl
  · have stored := rvAccessVirt_steps mc m h (m.xreg h (rvInsnRs1 insn) + rvInsnSImm12 insn)
      wdata (rvStoreSizeExp (rvInsnFunct3 insn)) .store
    split
    · exact memTrap_steps _ .store _ stored
    · exact .data stored

theorem rvBaseJal_steps : InsnSteps mc m h insn (rvBaseJal m h insn) :=
  .data ((MicroSteps.refl.writeXreg _ _).setPc _)

theorem rvBaseJalr_steps : InsnSteps mc m h insn (rvBaseJalr m h insn) :=
  .data ((MicroSteps.refl.writeXreg _ _).setPc _)

theorem rvBaseLui_steps : InsnSteps mc m h insn (rvBaseLui m h insn) :=
  .data (MicroSteps.refl.writeXreg _ _)

theorem rvBaseBranch_steps : InsnSteps mc m h insn (rvBaseBranch mc m h insn) := by
  unfold rvBaseBranch
  split
  · exact iillegal_steps insn .refl
  · exact .data (MicroSteps.refl.setPc _)
  · exact .data .refl

theorem doCsr_steps (system : rvOpMajOf insn = some .system) :
    InsnSteps mc m h insn (doCsr mc m h insn) := by
  unfold doCsr
  split
  · exact iillegal_steps insn .refl
  · next read =>
      split
      · exact iillegal_steps insn .refl
      · next form =>
          split
          · exact iillegal_steps insn .refl
          · next written => exact .csr ⟨system, form⟩ read written

theorem rvBaseSystem_steps (system : rvOpMajOf insn = some .system) :
    InsnSteps mc m h insn (rvBaseSystem mc m h insn) := by
  have illegal : InsnSteps mc m h insn (rvDoIillegal mc m h insn) :=
    iillegal_steps insn .refl
  simp only [rvBaseSystem]
  split
  · exact doCsr_steps system
  split
  · next mret => exact .mret mret.2
  split
  · split
    · exact illegal
    · next legal => exact .sret (Bool.not_eq_true _ ▸ legal)
  split
  · split
    · exact illegal
    · exact .data .refl
  split
  · split
    · exact illegal
    · exact .data (MicroSteps.refl.fence _)
  split
  · split
    · next level => exact .abort level
    · exact .trap _ .refl
  split
  · exact .trap _ .refl
  · exact illegal

/-! ### Atomics -/

/-- The machine an atomic operation leaves, before a trap or a register write. -/
def AtomicOutcome.machine : AtomicOutcome δ → EmuMachine δ
  | .iillegal m => m
  | .trap m _ => m
  | .lr m _ _ => m
  | .sc m _ _ => m
  | .amo m _ _ => m

theorem rvAtomicLr_steps (addr : U64) :
    MicroSteps mc h m (rvAtomicLr mc m h insn addr).machine := by
  have loaded := rvAccessVirt_steps mc m h addr 0 (rvAtomicSizeExp insn) .load
  simp only [rvAtomicLr, rvAtomicFault]
  split
  · exact .refl
  split
  · exact loaded
  · exact loaded.reserve _

theorem rvAtomicSc_steps (addr : U64) :
    MicroSteps mc h m (rvAtomicSc mc m h insn addr).machine := by
  have stored := rvAccessVirt_steps mc m h addr (m.xreg h (rvInsnRs2 insn))
    (rvAtomicSizeExp insn) .store
  simp only [rvAtomicSc, rvAtomicFault]
  split
  · split
    · exact stored
    · exact stored.reserve _
  · exact .refl

theorem rvAtomicAmo_steps (addr : U64) :
    MicroSteps mc h m (rvAtomicAmo mc m h insn addr).machine := by
  have loaded := rvAccessVirt_steps mc m h addr 0 (rvAtomicSizeExp insn) .amo
  simp only [rvAtomicAmo, rvAtomicFault]
  split
  · exact loaded
  split
  · exact loaded
  · next newval _ =>
      have stored := loaded.access addr newval (rvAtomicSizeExp insn) .store
      split
      · exact stored
      · exact stored.reserve _

theorem rvAtomicExec_steps : MicroSteps mc h m (rvAtomicExec mc m h insn).machine := by
  simp only [rvAtomicExec]
  generalize (if rvInsnFunct3 insn = 2 then (3 : U64) else 7) = alignMask
  split
  · exact .refl
  split
  · exact .refl
  split
  · exact rvAtomicLr_steps _
  split
  · exact rvAtomicSc_steps _
  · exact rvAtomicAmo_steps _

theorem rvAtomicOp_steps : InsnSteps mc m h insn (rvAtomicOp mc m h insn) := by
  have executed : MicroSteps mc h m (rvAtomicExec mc m h insn).machine := rvAtomicExec_steps
  unfold rvAtomicOp
  cases outcome : rvAtomicExec mc m h insn with
  | iillegal m' =>
      rw [outcome] at executed
      exact iillegal_steps insn executed
  | trap m' trap =>
      rw [outcome] at executed
      exact .trap trap executed
  | lr m' addr val =>
      rw [outcome] at executed
      exact .data (executed.writeXreg _ _)
  | sc m' addr success =>
      rw [outcome] at executed
      exact .data (executed.writeXreg _ _)
  | amo m' addr old =>
      rw [outcome] at executed
      exact .data (executed.writeXreg _ _)

/-! ### Floating point -/

theorem rvFloatBinop_regs (op : FpBinop) (cpu : RvCpu) (env : FpEnv) (f64 : Bool) :
    RegsOnly cpu (rvFloatBinop mc op cpu insn env f64).1 := by
  simp only [rvFloatBinop]
  split <;> exact regsOnly_freg _ _ _

theorem rvFloatRounded_regs {cpu : RvCpu} {env : FpEnv} {f64 : Bool} {out : RvCpu × FpFlags}
    (computed : rvFloatRounded mc cpu insn env f64 = some out) : RegsOnly cpu out.1 := by
  unfold rvFloatRounded at computed
  split at computed <;>
    (first | (rw [Option.some.injEq] at computed; rw [← computed]) | cases computed)
  · exact rvFloatBinop_regs .add cpu env f64
  · exact rvFloatBinop_regs .sub cpu env f64
  · exact rvFloatBinop_regs .mul cpu env f64
  · exact rvFloatBinop_regs .div cpu env f64
  · simp only [rvFloatSqrt]
    split <;> exact regsOnly_freg _ _ _
  · simp only [rvFloatFtof]
    split_ifs <;> exact regsOnly_freg _ _ _
  · simp only [rvFloatXtof]
    split <;> exact regsOnly_freg _ _ _
  · exact regsOnly_xreg _ _ _
  · exact regsOnly_xreg _ _ _
  · exact regsOnly_freg _ _ _

theorem rvFloatCompare_regs {cpu cpu' : RvCpu} {f64 : Bool}
    (compared : rvFloatCompare mc cpu insn f64 = some cpu') : RegsOnly cpu cpu' := by
  simp only [rvFloatCompare] at compared
  split at compared <;>
    (first | (rw [Option.some.injEq] at compared; rw [← compared]) | cases compared)
  all_goals exact (regsOnly_xreg _ _ _).trans (regsOnly_accrue _ _)

theorem rvFloatSgnj_regs {cpu cpu' : RvCpu} {f64 : Bool}
    (moved : rvFloatSgnj cpu insn f64 = some cpu') : RegsOnly cpu cpu' := by
  simp only [rvFloatSgnj] at moved
  split at moved <;>
    (first | (rw [Option.some.injEq] at moved; rw [← moved]) | cases moved)
  all_goals exact regsOnly_freg _ _ _

theorem rvFloatMinMax_regs (cpu : RvCpu) (round : FeRound) (f64 : Bool) :
    RegsOnly cpu (rvFloatMinMax mc cpu round insn f64).1 := by
  simp only [rvFloatMinMax]
  generalize (rvIsSnan (rvFregReadAs cpu f64 (rvInsnRs1 insn)) f64 ||
    rvIsSnan (rvFregReadAs cpu f64 (rvInsnRs2 insn)) f64) = signaling
  have accrued : RegsOnly cpu
      (if signaling = true then rvAccrue cpu (bit rvFflagsNvBit) else cpu) := by
    split
    · exact regsOnly_accrue _ _
    · exact RegsOnly.refl cpu
  split
  · exact accrued
  · split
    · exact accrued
    · exact accrued.trans (regsOnly_freg _ _ _)

theorem rvFloatFused_regs (cpu : RvCpu) (env : FpEnv) (f64 : Bool) :
    RegsOnly cpu (rvFloatFused mc cpu insn env f64).1 := by
  have accrued : ∀ invalid : Bool, RegsOnly cpu
      (if invalid = true then rvAccrue cpu (bit rvFflagsNvBit) else cpu) := by
    intro invalid
    split
    · exact regsOnly_accrue _ _
    · exact RegsOnly.refl cpu
  simp only [rvFloatFused]
  split <;> exact (accrued _).trans (regsOnly_freg _ _ _)

theorem rvFloatFinish_steps {m m' : EmuMachine δ} (before : MicroSteps mc h m m') (env : FpEnv)
    {out : RvCpu × FpFlags} (same : RegsOnly (m'.cpus h) out.1) :
    MicroSteps mc h m (rvFloatFinish m' h env out) :=
  before.regs (same.trans (regsOnly_accrue _ _))

theorem rvFloatOpFp_steps : InsnSteps mc m h insn (rvFloatOpFp mc m h insn) := by
  have illegal : InsnSteps mc m h insn (rvDoIillegal mc m h insn) :=
    iillegal_steps insn .refl
  simp only [rvFloatOpFp]
  split
  · exact illegal
  split
  · exact illegal
  · next f64 _ =>
      split
      · split
        · exact illegal
        · next compared => exact .data (MicroSteps.refl.regs (rvFloatCompare_regs compared))
      split
      · split
        · exact illegal
        · next moved => exact .data (MicroSteps.refl.regs (rvFloatSgnj_regs moved))
      split
      · have same : RegsOnly (m.cpus h) (rvFloatMinMax mc (m.cpus h) (m.feround h) insn f64).1 :=
          rvFloatMinMax_regs _ _ _
        have stored : MicroSteps mc h m (m.setCpu h _) := MicroSteps.refl.regs same
        split
        · exact iillegal_steps insn stored
        · exact .data stored
      · have rounding : MicroSteps mc h m (m.setFeround h _) := MicroSteps.refl.round
          (rvFloatEnv mc (m.cpus h) insn (m.feround h)).round
        split
        · exact iillegal_steps insn rounding
        · next computed =>
            exact .data (rvFloatFinish_steps rounding _ (rvFloatRounded_regs computed))

theorem rvFloatFmadd_steps : InsnSteps mc m h insn (rvFloatFmadd mc m h insn) := by
  simp only [rvFloatFmadd]
  split
  · exact iillegal_steps insn .refl
  split
  · exact iillegal_steps insn .refl
  · exact .data (rvFloatFinish_steps (MicroSteps.refl.round _) _ (rvFloatFused_regs _ _ _))

/-- Every instruction word comes to one of the effects. -/
theorem rvForcefeedInsn_steps : InsnSteps mc m h insn (rvForcefeedInsn mc m h insn) := by
  unfold rvForcefeedInsn
  split
  · exact rvBaseOp_steps
  · exact rvBaseOp_steps
  · exact rvBaseOp_steps
  · exact rvBaseOp_steps
  · exact rvBaseLoad_steps
  · exact rvBaseLoad_steps
  · exact rvBaseStore_steps
  · exact rvBaseStore_steps
  · exact rvBaseJal_steps
  · exact rvBaseJalr_steps
  · exact rvBaseLui_steps
  · exact rvBaseLui_steps
  · next system => exact rvBaseSystem_steps system
  · exact rvBaseBranch_steps
  · exact .data .refl
  · exact rvAtomicOp_steps
  · exact rvFloatOpFp_steps
  · exact rvFloatFmadd_steps
  · exact rvFloatFmadd_steps
  · exact rvFloatFmadd_steps
  · exact rvFloatFmadd_steps
  · exact iillegal_steps insn .refl

theorem rvForcefeedInsn_work : InsnWork mc m h insn (rvForcefeedInsn mc m h insn) :=
  rvForcefeedInsn_steps.work

theorem rvForcefeedInsn_effect : InsnEffect mc m h insn (rvForcefeedInsn mc m h insn) :=
  rvForcefeedInsn_work.effect

theorem rvAtomicExec_work : Work mc h m (rvAtomicExec mc m h insn).machine :=
  rvAtomicExec_steps.work

theorem rvAtomicExec_machine : DataStep m (rvAtomicExec mc m h insn).machine :=
  rvAtomicExec_work.dataStep

end Effects

end Riscmulator
