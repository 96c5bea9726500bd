import Riscmulator.Device.Clint
import Riscmulator.TrapReturn

/-! What a step below M-mode can reach of the control state: nothing that
belongs to M-mode and, in U-mode without a trap, nothing at all. -/

namespace Riscmulator

open Transition BitField

variable {δ : Type}

/-- The bits of `mstatus` that belong to M-mode. -/
def rvStatusMachineBits : List Nat :=
  [rvStatusMieBit, rvStatusMpieBit, rvStatusMppBaseBit, rvStatusMppBaseBit + 1, rvStatusMprvBit,
    rvStatusTvmBit, rvStatusTwBit, rvStatusTsrBit]

/-- The registers of M-mode are as they were. -/
structure MachineKept (cpu cpu' : RvCpu) : Prop where
  mtvec : cpu'.csr.mtvec = cpu.csr.mtvec
  mepc : cpu'.csr.mepc = cpu.csr.mepc
  mcause : cpu'.csr.mcause = cpu.csr.mcause
  mtval : cpu'.csr.mtval = cpu.csr.mtval
  mtinst : cpu'.csr.mtinst = cpu.csr.mtinst
  mscratch : cpu'.csr.mscratch = cpu.csr.mscratch
  mie : cpu'.csr.mie = cpu.csr.mie
  mideleg : cpu'.csr.mideleg = cpu.csr.mideleg
  medeleg : cpu'.csr.medeleg = cpu.csr.medeleg
  mhartid : cpu'.csr.mhartid = cpu.csr.mhartid
  pmpcfg : cpu'.csr.pmpcfg = cpu.csr.pmpcfg
  pmpaddr : cpu'.csr.pmpaddr = cpu.csr.pmpaddr
  status : ∀ i ∈ rvStatusMachineBits,
    cpu'.csr.mstatus.getLsbD i = cpu.csr.mstatus.getLsbD i

theorem MachineKept.trans {first middle last : RvCpu} (left : MachineKept first middle)
    (right : MachineKept middle last) : MachineKept first last where
  mtvec := right.mtvec.trans left.mtvec
  mepc := right.mepc.trans left.mepc
  mcause := right.mcause.trans left.mcause
  mtval := right.mtval.trans left.mtval
  mtinst := right.mtinst.trans left.mtinst
  mscratch := right.mscratch.trans left.mscratch
  mie := right.mie.trans left.mie
  mideleg := right.mideleg.trans left.mideleg
  medeleg := right.medeleg.trans left.medeleg
  mhartid := right.mhartid.trans left.mhartid
  pmpcfg := right.pmpcfg.trans left.pmpcfg
  pmpaddr := right.pmpaddr.trans left.pmpaddr
  status := fun i machine => (right.status i machine).trans (left.status i machine)

/-! ### What keeps the registers of M-mode -/

theorem machineKept_control {cpu cpu' : RvCpu} (same : SameControl cpu cpu') :
    MachineKept cpu cpu' := by
  rcases same.csr with ⟨fcsr, csr⟩
  constructor <;> rw [csr]
  exact fun _ _ => rfl

theorem machineKept_trapS {cpu : RvCpu} (low : cpu.privilege ≤ 1) (trap : RvTrap) :
    MachineKept cpu (rvTrapEnterS cpu trap) := by
  refine ⟨rfl, rfl, rfl, rfl, rfl, rfl, rfl, rfl, rfl, rfl, rfl, rfl, ?_⟩
  intro i machine
  have entered : (rvTrapEnterS cpu trap).csr.mstatus =
      rvTrapMstatusS cpu.csr.mstatus cpu.privilege := rfl
  have apart : ∀ i ∈ rvStatusMachineBits, i ≠ 5 ∧ i ≠ 1 ∧ i ≠ 8 := by decide
  obtain ⟨spie, sie, spp⟩ := apart i machine
  rw [entered, rvTrapMstatusS_getLsbD _ low, if_neg spie, if_neg sie, if_neg spp]

theorem machineKept_sret {cpu : RvCpu} (clear : cpu.mprv = false) :
    MachineKept cpu (rvSret cpu) := by
  refine ⟨rfl, rfl, rfl, rfl, rfl, rfl, rfl, rfl, rfl, rfl, rfl, rfl, ?_⟩
  intro i machine
  have apart : ∀ i ∈ rvStatusMachineBits, i ≠ 1 ∧ i ≠ 5 ∧ i ≠ 8 := by decide
  obtain ⟨sie, spie, spp⟩ := apart i machine
  rw [rvSret_getLsbD, if_neg sie, if_neg spie, if_neg spp]
  split
  · next mprv =>
      subst mprv
      exact clear.symm
  · rfl

theorem machineKept_write {cpu cpu' : RvCpu} {reg : RvCsr} {wdata : U64} (low : reg.level ≤ 1)
    (written : rvCsrWriteReg cpu reg wdata = some cpu') : MachineKept cpu cpu' := by
  have status : ∀ i ∈ rvStatusMachineBits,
      cpu'.csr.mstatus.getLsbD i = cpu.csr.mstatus.getLsbD i := by
    intro i machine
    have outside : ∀ i ∈ rvStatusMachineBits, rvSstatusMask.getLsbD i = false := by decide
    have other : reg ≠ .mstatus := by
      rintro rfl
      exact absurd low (by decide)
    rw [rvCsrWriteReg_mstatus written, if_neg other]
    split
    · rw [getLsbD_replace, outside i machine]
      rfl
    · rfl
  cases reg <;> simp only [RvCsr.level] at low <;> (try omega) <;>
    simp only [rvCsrWriteReg] at written <;> (try split_ifs at written) <;> cases written <;>
    exact ⟨rfl, rfl, rfl, rfl, rfl, rfl, rfl, rfl, rfl, rfl, rfl, rfl, status⟩

/-! ### Steps below M-mode -/

/-- A core that came from `first`, below M-mode all the time or in M-mode now. -/
def LowOrMachine (first cpu : RvCpu) : Prop :=
  (cpu.privilege ≤ 1 ∧ MachineKept first cpu) ∨ cpu.privilege = 3

theorem LowOrMachine.control {first cpu cpu' : RvCpu} (before : LowOrMachine first cpu)
    (same : SameControl cpu cpu') : LowOrMachine first cpu' := by
  rcases before with ⟨low, kept⟩ | machine
  · left
    refine ⟨?_, kept.trans (machineKept_control same)⟩
    rw [same.privilege]
    exact low
  · right
    rw [same.privilege]
    exact machine

theorem LowOrMachine.trap {first cpu : RvCpu} (before : LowOrMachine first cpu) (trap : RvTrap) :
    LowOrMachine first (rvTrapEnter cpu trap) := by
  unfold rvTrapEnter
  split
  · next delegated =>
      simp only [rvTrapDelegated, Bool.and_eq_true, decide_eq_true_eq] at delegated
      have low : cpu.privilege ≤ 1 := delegated.1
      rcases before with ⟨_, kept⟩ | machine
      · exact Or.inl ⟨(by decide : (1 : U8) ≤ 1), kept.trans (machineKept_trapS low trap)⟩
      · rw [machine] at low
        exact absurd low (by decide)
  · exact Or.inr rfl

section Step

variable {mc : EmuConfig δ} {m m' : EmuMachine δ} {h : Nat} {first : RvCpu}

theorem LowOrMachine.doTrap (hooks : mc.NoHooks) (before : LowOrMachine first (m.cpus h))
    (trap : RvTrap) : LowOrMachine first ((rvDoTrap mc m h trap).cpus h) := by
  rw [rvDoTrap_noHooks hooks, EmuMachine.setCpu_same]
  exact before.trap trap

theorem LowOrMachine.checkInterrupts (hooks : mc.NoHooks)
    (before : LowOrMachine first (m.cpus h)) :
    LowOrMachine first ((rvCheckInterrupts mc m h).cpus h) := by
  unfold rvCheckInterrupts
  split
  · exact before
  · exact before.doTrap hooks _

/-- An instruction below M-mode writes registers below M-mode only, and returns
from S-mode only. -/
theorem insnEffect_lowOrMachine {insn : U32} (hooks : mc.NoHooks) (synced : MemSynced (m.cpus h))
    (low : (m.cpus h).privilege ≤ 1) (kept : MachineKept first (m.cpus h))
    (effect : InsnEffect mc m h insn m') : LowOrMachine first (m'.cpus h) := by
  have before : LowOrMachine first (m.cpus h) := Or.inl ⟨low, kept⟩
  have notMachine : (m.cpus h).privilege ≠ 3 := by bv_omega
  cases effect with
  | data step => exact before.control (step.core h)
  | trap trap step => exact (before.control (step.core h)).doTrap hooks trap
  | csr form read written =>
      rw [EmuMachine.setCpu_same]
      apply LowOrMachine.control _ (sameControl_xreg _ _ _)
      rcases doCsrWrite_cases form read written with rfl | ⟨reg, wdata, writes, stored⟩
      · exact before
      · have level : reg.level ≤ 1 := by
          have granted := writes.2.2.1.level
          bv_omega
        left
        refine ⟨?_, kept.trans (machineKept_write level stored)⟩
        rw [(rvCsrWriteReg_privilege stored).1]
        exact low
  | mret machine => exact absurd machine notMachine
  | sret legal =>
      rw [EmuMachine.setCpu_same]
      left
      refine ⟨?_, kept.trans (machineKept_sret (synced.below notMachine).1)⟩
      simp only [rvSret, rvSyncMemPrivilege_privilege]
      cases (m.cpus h).csr.mstatus.getLsbD rvStatusSppBit <;> decide
  | abort level => exact before

/-- A step from below M-mode ends in M-mode or leaves its registers alone. -/
theorem rvStepInsn_lowOrMachine (hooks : mc.NoHooks) (synced : MemSynced (m.cpus h))
    (low : (m.cpus h).privilege ≤ 1) :
    LowOrMachine (m.cpus h) ((rvStepInsn mc m h).cpus h) := by
  have same := (rvFetchInsn_step mc m h).core h
  have kept : MachineKept (m.cpus h) ((rvFetchInsn mc m h).machine.cpus h) :=
    machineKept_control same
  have level : ((rvFetchInsn mc m h).machine.cpus h).privilege ≤ 1 := by
    rw [same.privilege]
    exact low
  have fetched : LowOrMachine (m.cpus h) ((rvFetchInsn mc m h).machine.cpus h) :=
    Or.inl ⟨level, kept⟩
  have synced' := same.synced synced
  unfold rvStepInsn rvStepInsnBy
  cases outcome : rvFetchInsn mc m h with
  | fault m' trap =>
      rw [outcome] at fetched
      exact fetched.doTrap hooks trap
  | illegal m' hw =>
      rw [outcome] at fetched
      exact fetched.doTrap hooks _
  | word m' insn =>
      rw [outcome] at kept level synced'
      exact (insnEffect_lowOrMachine hooks synced' level kept
        rvForcefeedInsn_effect).checkInterrupts hooks

/-! ### Steps in U-mode that take no trap -/

/-- Executing the word ends in `rv_do_trap`. -/
def InsnTraps (mc : EmuConfig δ) (m : EmuMachine δ) (h : Nat) (insn : U32) : Prop :=
  ∃ m' trap, Work mc h m m' ∧ rvForcefeedInsn mc m h insn = rvDoTrap mc m' h trap

/-- The step takes an exception of its fetch or of its instruction, or an interrupt. -/
def StepTraps (mc : EmuConfig δ) (m : EmuMachine δ) (h : Nat) : Prop :=
  match rvFetchInsn mc m h with
  | .fault _ _ => True
  | .illegal _ _ => True
  | .word m' insn =>
      InsnTraps mc m' h insn ∨ rvInterruptCause ((rvForcefeedInsn mc m' h insn).cpus h) ≠ none

/-- A core that changes nothing but `fcsr` by a CSR write. -/
theorem rvCsrWriteReg_user {cpu cpu' : RvCpu} {reg : RvCsr} {wdata : U64} (user : reg.level = 0)
    (written : rvCsrWriteReg cpu reg wdata = some cpu') : CoreWork cpu cpu' := by
  cases reg <;> simp only [RvCsr.level] at user <;> (try omega) <;>
    simp only [rvCsrWriteReg] at written <;> (try split_ifs at written) <;> cases written <;>
    exact ⟨⟨⟨_, rfl⟩, rfl, rfl⟩, rfl, rfl⟩

theorem rvForcefeedInsn_user {insn : U32} (user : (m.cpus h).privilege = 0)
    (quiet : ¬InsnTraps mc m h insn) : Work mc h m (rvForcefeedInsn mc m h insn) := by
  have executed : InsnWork mc m h insn (rvForcefeedInsn mc m h insn) := rvForcefeedInsn_work
  revert executed
  generalize result : rvForcefeedInsn mc m h insn = m'
  intro executed
  cases executed with
  | data work => exact work
  | trap trap work => exact absurd ⟨_, trap, work, result⟩ quiet
  | csr form read written =>
      apply Work.refl.core
      apply CoreWork.trans _ (regsOnly_xreg _ _ _).coreWork
      rcases doCsrWrite_cases form read written with rfl | ⟨reg, wdata, writes, stored⟩
      · exact CoreWork.refl _
      · have granted := writes.2.2.1.level
        rw [user] at granted
        exact rvCsrWriteReg_user (Nat.le_zero.mp granted) stored
  | mret machine =>
      rw [user] at machine
      exact absurd machine (by decide)
  | sret legal =>
      rw [rvSupervisorIllegal, user] at legal
      exact absurd legal (by simp)
  | abort level =>
      rw [user] at level
      exact absurd level (by decide)

theorem rvStepInsn_user (user : (m.cpus h).privilege = 0) (quiet : ¬StepTraps mc m h) :
    Work mc h m (rvStepInsn mc m h) := by
  have fetched := rvFetchInsn_work mc m h
  unfold StepTraps at quiet
  unfold rvStepInsn rvStepInsnBy
  cases outcome : rvFetchInsn mc m h with
  | fault m' trap =>
      rw [outcome] at quiet
      exact absurd trivial quiet
  | illegal m' hw =>
      rw [outcome] at quiet
      exact absurd trivial quiet
  | word m' insn =>
      rw [outcome] at quiet fetched
      rw [not_or, not_not] at quiet
      have level : (m'.cpus h).privilege = 0 := ((fetched.dataStep.core h).privilege).trans user
      simp only [rvCheckInterrupts, quiet.2]
      exact fetched.trans (rvForcefeedInsn_user level quiet.1)

end Step

/-! ### Steps of other harts -/

section Others

variable {mc : EmuConfig δ} {m m' : EmuMachine δ} {h i : Nat}

/-- An instruction leaves the control state of the other harts alone. -/
theorem insnEffect_other {insn : U32} (hooks : mc.NoHooks) (other : i ≠ h)
    (effect : InsnEffect mc m h insn m') : SameControl (m.cpus i) (m'.cpus i) := by
  cases effect with
  | data step => exact step.core i
  | trap trap step =>
      rw [rvDoTrap_other hooks other]
      exact step.core i
  | csr form read written =>
      rw [EmuMachine.setCpu_other _ _ other]
      exact .refl _
  | mret machine =>
      rw [EmuMachine.setCpu_other _ _ other]
      exact .refl _
  | sret legal =>
      rw [EmuMachine.setCpu_other _ _ other]
      exact .refl _
  | abort level => exact .refl _

theorem rvStepInsn_other (hooks : mc.NoHooks) (other : i ≠ h) :
    SameControl (m.cpus i) ((rvStepInsn mc m h).cpus i) := by
  have fetched := (rvFetchInsn_step mc m h).core i
  unfold rvStepInsn rvStepInsnBy
  revert fetched
  generalize rvFetchInsn mc m h = outcome
  intro fetched
  cases outcome with
  | fault m' trap =>
      rw [rvDoTrap_other hooks other]
      exact fetched
  | illegal m' hw =>
      change SameControl _ ((rvDoTrap mc m' h _).cpus i)
      rw [rvDoTrap_other hooks other]
      exact fetched
  | word m' insn =>
      have executed : SameControl (m.cpus i) ((rvForcefeedInsn mc m' h insn).cpus i) :=
        fetched.trans (insnEffect_other hooks other rvForcefeedInsn_effect)
      simp only [rvCheckInterrupts]
      split
      · exact executed
      · rw [rvDoTrap_other hooks other]
        exact executed

end Others

/-! ### Runs -/

theorem rvStepInsn_isolates {mc : EmuConfig δ} (hooks : mc.NoHooks) {m : EmuMachine δ} {h : Nat}
    (synced : MemSynced (m.cpus h)) :
    ((m.cpus h).privilege ≤ 1 → ((rvStepInsn mc m h).cpus h).privilege ≤ 1 →
      MachineKept (m.cpus h) ((rvStepInsn mc m h).cpus h)) ∧
    ((m.cpus h).privilege = 0 → ¬StepTraps mc m h →
      SameControl (m.cpus h) ((rvStepInsn mc m h).cpus h) ∧
      BusReach mc m.bus (rvStepInsn mc m h).bus) := by
  constructor
  · intro low after
    rcases rvStepInsn_lowOrMachine hooks synced low with ⟨_, kept⟩ | machine
    · exact kept
    · rw [machine] at after
      exact absurd after (by decide)
  · intro user quiet
    have work := rvStepInsn_user user quiet
    exact ⟨work.dataStep.core h, work.bus⟩

/-- In every state reached from `emu_machine_init`, a step of a hart below M-mode
that does not end in M-mode leaves the registers of M-mode alone. A step in
U-mode that takes no trap leaves all control registers but `fcsr` and the
privilege alone, and the interrupt lines to the callbacks of the devices. The TLB
stores of the run and of the step stay in their arrays. -/
theorem isolation_run (mc : EmuConfig δ) (hooks : mc.NoHooks) (device : δ)
    (events : List (MachineEvent δ)) (h : Nat) {m : EmuMachine δ}
    (reached : m = run (hostStep mc) (emuMachineInit device) events)
    (inside : StepsMeet (hostStep mc) (StoresInArray mc) (emuMachineInit device)
      (events ++ [.step h])) :
    ((m.cpus h).privilege ≤ 1 → ((hostStepInsn mc m h).cpus h).privilege ≤ 1 →
      MachineKept (m.cpus h) ((hostStepInsn mc m h).cpus h)) ∧
    ((m.cpus h).privilege = 0 → ¬StepTraps mc m h →
      SameControl (m.cpus h) ((hostStepInsn mc m h).cpus h) ∧
      BusReach mc m.bus (hostStepInsn mc m h).bus) := by
  rcases (stepsMeet_append _ _ _).mp inside with ⟨before, own⟩
  rw [← reached] at own
  have synced : MemSynced (m.cpus h) := by
    rw [reached, hostRun_eq before]
    exact (memSynced_invariant (hooks.keeps _)).run (emuMachineInit_synced device h) events
  rw [hostStepInsn_eq own.1]
  exact rvStepInsn_isolates hooks synced

/-! ### The software interrupt line -/

/-- A step that takes a trap does not end in U-mode. -/
theorem stepTraps_privilege {mc : EmuConfig δ} (hooks : mc.NoHooks) {m : EmuMachine δ} {h : Nat}
    (traps : StepTraps mc m h) : ((rvStepInsn mc m h).cpus h).privilege ≠ 0 := by
  have entered : ∀ (m' : EmuMachine δ) trap, ((rvDoTrap mc m' h trap).cpus h).privilege ≠ 0 := by
    intro m' trap
    rw [rvDoTrap_noHooks hooks, EmuMachine.setCpu_same, rvTrapEnter]
    split
    · exact (by decide : (1 : U8) ≠ 0)
    · exact (by decide : (3 : U8) ≠ 0)
  unfold StepTraps at traps
  unfold rvStepInsn rvStepInsnBy
  cases outcome : rvFetchInsn mc m h with
  | fault m' trap => exact entered m' trap
  | illegal m' hw => exact entered m' _
  | word m' insn =>
      rw [outcome] at traps
      simp only [rvCheckInterrupts]
      split
      · next none =>
          rcases traps with ⟨m'', trap, _, same⟩ | taken
          · rw [same]
            exact entered m'' trap
          · exact absurd none taken
      · exact entered _ _

/-- A hart with 4 KiB of RAM and a core-local interruptor behind it. -/
def clintConfig : EmuConfig RvClint where
  ramStart := 0
  ramEnd := 0x1000
  cpuCount := 1
  mmio := [rvClintMmioRegion 0x10000 0]
  trapHook := fun _ => none
  rvFloatExactMath := false
  fpu := default
  softfloat := default

/-- `sw x1, 0(x2)` in the first word of RAM. -/
def storeRam : U64 → U8 := ramStore (fun _ => 0) 0 0x00112023 4

/-- Grant all of memory, delegate the software interrupt and enter U-mode. -/
def clintSetup : List (MachineEvent RvClint) :=
  [.load storeRam, .insn 0 0xfff00093, .insn 0 0x3b009073, .insn 0 0x01f00093,
    .insn 0 0x3a009073, .insn 0 0x00800093, .insn 0 0x30309073, .insn 0 0x00100093,
    .insn 0 0x00010137, .insn 0 0x30200073]

def clintUser : EmuMachine RvClint :=
  run (hostStep clintConfig) (emuMachineInit (rvClintInit 0 1)) clintSetup

theorem clintUser_quiet : ¬StepTraps clintConfig clintUser 0 := by
  intro traps
  have user : ((rvStepInsn clintConfig clintUser 0).cpus 0).privilege = 0 := by decide
  exact stepTraps_privilege (fun _ => rfl) traps user

theorem clintSetup_untranslated :
    StepsMeet (hostStep clintConfig) (fun m e => e.Untranslated m)
      (emuMachineInit (rvClintInit 0 1)) (clintSetup ++ [.step 0]) :=
  ⟨by decide, by decide, by decide, by decide, by decide, by decide, by decide, by decide,
    by decide, by decide, by decide, trivial⟩

/-- A store by U-mode to the interruptor changes `sip`. -/
theorem isolation_sip :
    (clintUser.cpus 0).privilege = 0 ∧ ¬StepTraps clintConfig clintUser 0 ∧
      rvCsrReadReg ((hostStepInsn clintConfig clintUser 0).cpus 0) .sip ≠
        rvCsrReadReg (clintUser.cpus 0) .sip :=
  ⟨by decide, clintUser_quiet, by decide⟩

/-- That store leaves the control registers alone. -/
theorem isolation_run_store :
    MachineKept (clintUser.cpus 0) ((hostStepInsn clintConfig clintUser 0).cpus 0) ∧
      SameControl (clintUser.cpus 0) ((hostStepInsn clintConfig clintUser 0).cpus 0) ∧
      BusReach clintConfig clintUser.bus (hostStepInsn clintConfig clintUser 0).bus := by
  have both := isolation_run clintConfig (fun _ => rfl) (rvClintInit 0 1) clintSetup 0 rfl
    (storesInArray_run (fun _ => rfl) (emuMachineInit_inArray _) clintSetup_untranslated)
  exact ⟨both.1 (by decide) (by decide), both.2 (by decide) clintUser_quiet⟩

end Riscmulator
