import Riscmulator.HostMemory

/-! The privilege levels a core can be in, over runs of the whole machine. -/

namespace Riscmulator

open Transition

variable {δ : Type}

def PrivLevel (p : U8) : Prop := p = 0 ∨ p = 1 ∨ p = 3

def statusMpp (mstatus : U64) : U8 := ((mstatus >>> rvStatusMppBaseBit) &&& 3).setWidth 8

structure PrivLegal (cpu : RvCpu) : Prop where
  privilege : PrivLevel cpu.privilege
  memPrivilege : PrivLevel cpu.memPrivilege
  mpp : PrivLevel (statusMpp cpu.csr.mstatus)

/-- Every core has legal levels and the host has not aborted. -/
structure LevelsLegal (m : EmuMachine δ) : Prop where
  core : ∀ h, PrivLegal (m.cpus h)
  running : m.aborted = false

/-! ### The MPP field -/

theorem statusMpp_field (mstatus : U64) :
    statusMpp mstatus = ((mstatus >>> rvStatusMppBaseBit).setWidth 2).setWidth 8 := by
  apply BitVec.eq_of_toNat_eq
  simp only [statusMpp, BitVec.toNat_setWidth, BitVec.toNat_and]
  have mask : ((3 : U64).toNat) = 2 ^ 2 - 1 := by decide
  rw [mask, Nat.and_two_pow_sub_one_eq_mod]

/-- The reserved encoding is the high bit without the low one. -/
theorem privLevel_mpp (mstatus : U64) :
    PrivLevel (statusMpp mstatus) ↔
      ¬(mstatus.getLsbD 12 = true ∧ mstatus.getLsbD 11 = false) := by
  have field : ∀ f : BitVec 2, (f.setWidth 8 = 0#8 ∨ f.setWidth 8 = 1#8 ∨ f.setWidth 8 = 3#8) ↔
      ¬(f.getLsbD 1 = true ∧ f.getLsbD 0 = false) := by decide
  have low : ((mstatus >>> rvStatusMppBaseBit).setWidth 2).getLsbD 0 = mstatus.getLsbD 11 := by
    simp [rvStatusMppBaseBit]
  have high : ((mstatus >>> rvStatusMppBaseBit).setWidth 2).getLsbD 1 = mstatus.getLsbD 12 := by
    simp [rvStatusMppBaseBit]
  rw [PrivLevel, statusMpp_field, ← low, ← high]
  exact field _

theorem privLevel_mpp_congr {left right : U64} (low : left.getLsbD 11 = right.getLsbD 11)
    (high : left.getLsbD 12 = right.getLsbD 12) :
    PrivLevel (statusMpp left) ↔ PrivLevel (statusMpp right) := by
  rw [privLevel_mpp, privLevel_mpp, low, high]

theorem rvMstatusWdata_mpp (wdata : U64) :
    PrivLevel (statusMpp (rvMstatusWdata wdata)) ↔ PrivLevel (statusMpp wdata) := by
  have maskLow : rvMstatusMask.getLsbD 11 = true := by decide
  have maskHigh : rvMstatusMask.getLsbD 12 = true := by decide
  have slipLow : (BitVec.ofNat 64 rvStatusMppBaseBit).getLsbD 11 = false := by decide
  have slipHigh : (BitVec.ofNat 64 rvStatusMppBaseBit).getLsbD 12 = false := by decide
  apply privLevel_mpp_congr
  · simp only [rvMstatusWdata, BitVec.getLsbD_and, BitVec.getLsbD_or, maskLow, slipLow,
      Bool.and_false, Bool.or_false, Bool.and_true]
  · simp only [rvMstatusWdata, BitVec.getLsbD_and, BitVec.getLsbD_or, maskHigh, slipHigh,
      Bool.and_false, Bool.or_false, Bool.and_true]

/-! ### Traps and returns -/

theorem rvSyncMemPrivilege_legal {cpu : RvCpu} (privilege : PrivLevel cpu.privilege)
    (mpp : PrivLevel (statusMpp cpu.csr.mstatus)) : PrivLegal (rvSyncMemPrivilege cpu) := by
  refine ⟨privilege, ?_, mpp⟩
  simp only [rvSyncMemPrivilege]
  split
  · exact mpp
  · exact privilege

/-- Entry to S-mode leaves MPP alone: the privilege it saves is below 2. -/
theorem rvTrapMstatusS_mpp (mstatus : U64) {privilege : U8} (low : privilege ≤ 1) :
    PrivLevel (statusMpp (rvTrapMstatusS mstatus privilege)) ↔ PrivLevel (statusMpp mstatus) := by
  have cases : privilege = 0 ∨ privilege = 1 := by bv_omega
  apply privLevel_mpp_congr
  · rcases cases with rfl | rfl <;>
      simp [rvTrapMstatusS, bit, rvStatusSpieBit, rvStatusSieBit, rvStatusSppBit]
  · rcases cases with rfl | rfl <;>
      simp [rvTrapMstatusS, bit, rvStatusSpieBit, rvStatusSieBit, rvStatusSppBit]

/-- Entry to M-mode saves a legal level in MPP. -/
theorem rvTrapMstatusM_mpp (mstatus : U64) {privilege : U8} (legal : PrivLevel privilege) :
    PrivLevel (statusMpp (rvTrapMstatusM mstatus privilege)) := by
  rw [privLevel_mpp]
  rcases legal with rfl | rfl | rfl <;>
    simp [rvTrapMstatusM, bit, rvStatusMpieBit, rvStatusMieBit, rvStatusMppBaseBit]

theorem PrivLegal.setPc {cpu : RvCpu} (legal : PrivLegal cpu) (pc : U64) :
    PrivLegal { cpu with pc := pc } := ⟨legal.privilege, legal.memPrivilege, legal.mpp⟩

theorem rvTrapEnter_legal {cpu : RvCpu} (legal : PrivLegal cpu) (trap : RvTrap) :
    PrivLegal (rvTrapEnter cpu trap) := by
  unfold rvTrapEnter
  split
  · next delegated =>
      simp only [rvTrapDelegated, Bool.and_eq_true, decide_eq_true_eq] at delegated
      have mpp := (rvTrapMstatusS_mpp cpu.csr.mstatus delegated.1).mpr legal.mpp
      apply PrivLegal.setPc
      exact rvSyncMemPrivilege_legal (Or.inr (Or.inl rfl)) mpp
  · have mpp := rvTrapMstatusM_mpp cpu.csr.mstatus legal.privilege
    apply PrivLegal.setPc
    exact rvSyncMemPrivilege_legal (Or.inr (Or.inr rfl)) mpp

/-- `mret` moves a legal MPP into the privilege and leaves U in it. -/
theorem rvMret_legal {cpu : RvCpu} (legal : PrivLegal cpu) : PrivLegal (rvMret cpu) := by
  have privilege : PrivLevel (rvMret cpu).privilege := by
    refine (privLevel_mpp_congr ?_ ?_).mp legal.mpp
    · simp [bit, rvStatusMieBit, rvStatusMpieBit]
    · simp [bit, rvStatusMieBit, rvStatusMpieBit]
  have mpp : PrivLevel (statusMpp (rvMret cpu).csr.mstatus) := by
    rw [privLevel_mpp]
    intro reserved
    rcases reserved with ⟨high, _⟩
    revert high
    simp only [rvMret, rvSyncMemPrivilege_csr]
    split
    · simp [bit, rvStatusMppBaseBit]
    · simp [rvStatusMppBaseBit]
  apply PrivLegal.setPc
  exact rvSyncMemPrivilege_legal privilege mpp

theorem rvSret_legal {cpu : RvCpu} (legal : PrivLegal cpu) : PrivLegal (rvSret cpu) := by
  have privilege : PrivLevel (rvSret cpu).privilege := by
    simp only [rvSret, rvSyncMemPrivilege_privilege]
    cases cpu.csr.mstatus.getLsbD rvStatusSppBit
    · exact Or.inl rfl
    · exact Or.inr (Or.inl rfl)
  have mpp : PrivLevel (statusMpp (rvSret cpu).csr.mstatus) := by
    refine (privLevel_mpp_congr ?_ ?_).mp legal.mpp
    · simp [rvSret, bit, rvStatusSieBit, rvStatusSppBit, rvStatusSpieBit, rvStatusMprvBit]
    · simp [rvSret, bit, rvStatusSieBit, rvStatusSppBit, rvStatusSpieBit, rvStatusMprvBit]
  apply PrivLegal.setPc
  exact rvSyncMemPrivilege_legal privilege mpp

/-! ### Register writes -/

theorem rvSstatusWrite_mpp (mstatus wdata : U64) :
    PrivLevel (statusMpp ((mstatus &&& ~~~rvSstatusMask) ||| (wdata &&& rvSstatusMask))) ↔
      PrivLevel (statusMpp mstatus) := by
  have low : rvSstatusMask.getLsbD 11 = false := by decide
  have high : rvSstatusMask.getLsbD 12 = false := by decide
  apply privLevel_mpp_congr
  · rw [BitField.getLsbD_replace, low]
    rfl
  · rw [BitField.getLsbD_replace, high]
    rfl

/-- A register write keeps the levels legal unless it writes a reserved MPP. -/
theorem rvCsrWriteReg_legal {cpu cpu' : RvCpu} {reg : RvCsr} {wdata : U64}
    (legal : PrivLegal cpu) (written : rvCsrWriteReg cpu reg wdata = some cpu')
    (mpp : reg = .mstatus → PrivLevel (statusMpp wdata)) : PrivLegal cpu' := by
  by_cases mstatus : reg = .mstatus
  · subst mstatus
    simp only [rvCsrWriteReg, Option.some.injEq] at written
    rw [← written]
    exact rvSyncMemPrivilege_legal legal.privilege ((rvMstatusWdata_mpp wdata).mpr (mpp rfl))
  · rcases rvCsrWriteReg_privilege written with ⟨privilege, memPrivilege⟩
    refine ⟨?_, ?_, ?_⟩
    · rw [privilege]
      exact legal.privilege
    · rw [memPrivilege mstatus]
      exact legal.memPrivilege
    · rw [rvCsrWriteReg_mstatus written, if_neg mstatus]
      split
      · exact (rvSstatusWrite_mpp _ _).mpr legal.mpp
      · exact legal.mpp

/-! ### One event -/

theorem SameControl.legal {cpu cpu' : RvCpu} (same : SameControl cpu cpu')
    (legal : PrivLegal cpu) : PrivLegal cpu' := by
  rcases same.csr with ⟨fcsr, csr⟩
  refine ⟨?_, ?_, ?_⟩
  · rw [same.privilege]
    exact legal.privilege
  · rw [same.memPrivilege]
    exact legal.memPrivilege
  · rw [csr]
    exact legal.mpp

theorem DataStep.legal {m m' : EmuMachine δ} (step : DataStep m m') (legal : LevelsLegal m) :
    LevelsLegal m' :=
  ⟨fun h => (step.core h).legal (legal.core h), step.aborted.trans legal.running⟩

theorem LevelsLegal.setCpu {m : EmuMachine δ} (legal : LevelsLegal m) {h : Nat} {cpu : RvCpu}
    (core : PrivLegal cpu) : LevelsLegal (m.setCpu h cpu) := by
  refine ⟨fun i => ?_, legal.running⟩
  by_cases mine : i = h
  · subst mine
    rw [EmuMachine.setCpu_same]
    exact core
  · rw [EmuMachine.setCpu_other _ _ mine]
    exact legal.core i

theorem rvDoTrap_legal {mc : EmuConfig δ} (hooks : mc.NoHooks) {m : EmuMachine δ}
    (legal : LevelsLegal m) (h : Nat) (trap : RvTrap) : LevelsLegal (rvDoTrap mc m h trap) := by
  rw [rvDoTrap_noHooks hooks]
  exact legal.setCpu (rvTrapEnter_legal (legal.core h) trap)

theorem rvCheckInterrupts_legal {mc : EmuConfig δ} (hooks : mc.NoHooks) {m : EmuMachine δ}
    (legal : LevelsLegal m) (h : Nat) : LevelsLegal (rvCheckInterrupts mc m h) := by
  unfold rvCheckInterrupts
  split
  · exact legal
  · exact rvDoTrap_legal hooks legal h _

theorem rvEcallCause_legal {privilege : U8} (legal : PrivLevel privilege) :
    rvEcallCause privilege ≠ none := by
  rcases legal with rfl | rfl | rfl <;> decide

/-- The word does not write a reserved MPP when this core executes it. -/
def WritesLegalMpp (cpu : RvCpu) (insn : U32) : Prop :=
  ∀ wdata, InsnWrites cpu insn .mstatus wdata → PrivLevel (statusMpp wdata)

theorem insnEffect_legal {mc : EmuConfig δ} (hooks : mc.NoHooks) {m m' : EmuMachine δ} {h : Nat}
    {insn : U32} (legal : LevelsLegal m) (mpp : WritesLegalMpp (m.cpus h) insn)
    (effect : InsnEffect mc m h insn m') : LevelsLegal m' := by
  cases effect with
  | data step => exact step.legal legal
  | trap trap step => exact rvDoTrap_legal hooks (step.legal legal) h trap
  | csr form read written =>
      apply legal.setCpu
      apply (sameControl_xreg _ _ _).legal
      rcases doCsrWrite_cases form read written with rfl | ⟨reg, wdata, writes, stored⟩
      · exact legal.core h
      · apply rvCsrWriteReg_legal (legal.core h) stored
        intro mstatus
        subst mstatus
        exact mpp wdata writes
  | mret machine => exact legal.setCpu (rvMret_legal (legal.core h))
  | sret allowed => exact legal.setCpu (rvSret_legal (legal.core h))
  | abort level => exact absurd level (rvEcallCause_legal (legal.core h).privilege)

/-! ### Runs -/

/-- The condition on an event: the word it executes does not write a reserved
value to MPP. -/
def KeepsMpp (mc : EmuConfig δ) (m : EmuMachine δ) : MachineEvent δ → Prop
  | .insn h insn => WritesLegalMpp (m.cpus h) insn
  | .step h =>
      match rvFetchInsn mc m h with
      | .word m insn => WritesLegalMpp (m.cpus h) insn
      | _ => True
  | _ => True

theorem machineStep_legal {mc : EmuConfig δ} (hooks : mc.NoHooks) (m : EmuMachine δ)
    (e : MachineEvent δ) (legal : LevelsLegal m) (mpp : KeepsMpp mc m e) :
    LevelsLegal (machineStep mc m e) := by
  cases e with
  | step h =>
      have fetched := (rvFetchInsn_step mc m h).legal legal
      simp only [machineStep, machineStepBy, rvStepInsnBy]
      simp only [KeepsMpp] at mpp
      cases outcome : rvFetchInsn mc m h with
      | fault m' trap =>
          rw [outcome] at fetched
          exact rvDoTrap_legal hooks fetched h trap
      | illegal m' hw =>
          rw [outcome] at fetched
          exact rvDoTrap_legal hooks fetched h _
      | word m' insn =>
          rw [outcome] at fetched mpp
          exact rvCheckInterrupts_legal hooks
            (insnEffect_legal hooks fetched mpp rvForcefeedInsn_effect) h
  | insn h insn => exact insnEffect_legal hooks legal mpp rvForcefeedInsn_effect
  | trap h trap => exact rvDoTrap_legal hooks legal h trap
  | interrupts h => exact rvCheckInterrupts_legal hooks legal h
  | devices bus => exact ((setBus_frame m bus).virt 0).dataStep.legal legal
  | load ram => exact ((setRam_frame m ram).virt 0).dataStep.legal legal

theorem emuMachineInit_legal (device : δ) : LevelsLegal (emuMachineInit device) := by
  refine ⟨fun h => ?_, rfl⟩
  refine ⟨Or.inr (Or.inr rfl), Or.inr (Or.inr ?_), Or.inl ?_⟩
  · simp [emuMachineInit, rvSyncMemPrivilege, RvCpu.zero]
  · simp [emuMachineInit, RvCpu.zero, statusMpp]

/-- From `emu_machine_init`, without hooks, every state of a run has legal levels
and has not aborted, if no word of the run writes a reserved value to MPP and
no TLB store of the run leaves its array. -/
theorem levelsLegal_run (mc : EmuConfig δ) (hooks : mc.NoHooks) (device : δ)
    (events : List (MachineEvent δ))
    (meets : StepsMeet (hostStep mc) (fun m e => StoresInArray mc m e ∧ KeepsMpp mc m e)
      (emuMachineInit device) events) :
    Throughout (hostStep mc) LevelsLegal (emuMachineInit device) events := by
  refine throughout_of_stepsMeet (fun m e legal met => ?_) (emuMachineInit_legal device) meets
  rw [hostStep_eq met.1]
  exact machineStep_legal hooks m e legal met.2

/-- Entering U-mode: `mepc` is written, `mret` returns, and U-mode calls back. -/
theorem levelsLegal_run_mret :
    Throughout (hostStep (EmuConfig.ramOnly 0 0x1000 1)) LevelsLegal (emuMachineInit ())
      [.insn 0 0x34109073, .insn 0 0x30200073, .insn 0 0x00000073] :=
  levelsLegal_run (EmuConfig.ramOnly 0 0x1000 1) (fun _ => rfl) ()
    [.insn 0 0x34109073, .insn 0 0x30200073, .insn 0 0x00000073] (by
      refine stepsMeet_and (storesInArray_run (fun _ => rfl) (emuMachineInit_inArray ())
        ⟨by decide, by decide, by decide, trivial⟩) ⟨?_, ?_, ?_, trivial⟩
      · intro wdata writes
        rcases writes with ⟨_, _, ⟨_, selected⟩, _⟩
        exact absurd selected (by decide)
      · intro wdata writes
        rcases writes with ⟨⟨_, form⟩, _⟩
        exact absurd (by decide) form
      · intro wdata writes
        rcases writes with ⟨⟨_, form⟩, _⟩
        exact absurd (by decide) form)

/-- Writing `0x1000` to `mstatus`, returning with `mret` and making an
environment call aborts the host. -/
theorem levelsLegal_aborts :
    ¬∀ (mc : EmuConfig Unit) (events : List (MachineEvent Unit)), mc.NoHooks →
      Throughout (hostStep mc) LevelsLegal (emuMachineInit ()) events := by
  intro always
  have after := always (EmuConfig.ramOnly 0 0x1000 1)
    [.insn 0 0x000010b7, .insn 0 0x30009073, .insn 0 0x30200073, .insn 0 0x00000073]
    (fun _ => rfl) _ (List.prefix_refl _)
  have aborted : (run (hostStep (EmuConfig.ramOnly 0 0x1000 1)) (emuMachineInit ())
      [.insn 0 0x000010b7, .insn 0 0x30009073, .insn 0 0x30200073, .insn 0 0x00000073]).aborted =
      true := by decide +kernel
  rw [after.running] at aborted
  cases aborted

end Riscmulator
