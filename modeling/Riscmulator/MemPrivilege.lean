import Riscmulator.CoreInvariants
import Riscmulator.Overrun
import Riscmulator.PrivLevels

/-! The effective privilege of data accesses, which `mem_privilege` caches. -/

namespace Riscmulator

open Transition

variable {δ : Type}

def RvCpu.mprv (cpu : RvCpu) : Bool := cpu.csr.mstatus.getLsbD rvStatusMprvBit

/-- The cache holds the effective privilege, and MPRV is only ever set in M-mode. -/
structure MemSynced (cpu : RvCpu) : Prop where
  cached : cpu.memPrivilege =
    if cpu.mprv then statusMpp cpu.csr.mstatus else cpu.privilege
  machine : cpu.mprv = true → cpu.privilege = 3
  bounded : cpu.privilege ≤ 3

/-- Below M-mode the privilege of data accesses is that of fetches. -/
theorem MemSynced.below {cpu : RvCpu} (synced : MemSynced cpu) (low : cpu.privilege ≠ 3) :
    cpu.mprv = false ∧ cpu.memPrivilege = cpu.privilege := by
  have clear : cpu.mprv = false := by
    rw [← Bool.not_eq_true]
    exact fun set => low (synced.machine set)
  refine ⟨clear, ?_⟩
  rw [synced.cached, clear]
  rfl

theorem rvSyncMemPrivilege_synced {cpu : RvCpu} (machine : cpu.mprv = true → cpu.privilege = 3)
    (bounded : cpu.privilege ≤ 3) : MemSynced (rvSyncMemPrivilege cpu) := ⟨rfl, machine, bounded⟩

theorem MemSynced.setPc {cpu : RvCpu} (synced : MemSynced cpu) (pc : U64) :
    MemSynced { cpu with pc := pc } := ⟨synced.cached, synced.machine, synced.bounded⟩

/-! ### What keeps the cache -/

theorem SameControl.synced {cpu cpu' : RvCpu} (same : SameControl cpu cpu')
    (synced : MemSynced cpu) : MemSynced cpu' := by
  rcases same.csr with ⟨fcsr, csr⟩
  refine ⟨?_, ?_, ?_⟩
  · rw [same.memPrivilege, same.privilege, RvCpu.mprv, csr]
    exact synced.cached
  · rw [same.privilege, RvCpu.mprv, csr]
    exact synced.machine
  · rw [same.privilege]
    exact synced.bounded

theorem rvTrapMstatusS_mprv (mstatus : U64) {privilege : U8} (low : privilege ≤ 1) :
    (rvTrapMstatusS mstatus privilege).getLsbD rvStatusMprvBit =
      mstatus.getLsbD rvStatusMprvBit := by
  have cases : privilege = 0 ∨ privilege = 1 := by bv_omega
  rcases cases with rfl | rfl <;>
    simp [rvTrapMstatusS, bit, rvStatusSpieBit, rvStatusSieBit, rvStatusSppBit, rvStatusMprvBit]

/-- A delegated trap comes from below M-mode, where MPRV is clear; any other trap
ends in M-mode. -/
theorem rvTrapEnter_synced {cpu : RvCpu} (synced : MemSynced cpu) (trap : RvTrap) :
    MemSynced (rvTrapEnter cpu trap) := by
  unfold rvTrapEnter
  split
  · next delegated =>
      simp only [rvTrapDelegated, Bool.and_eq_true, decide_eq_true_eq] at delegated
      have low : cpu.privilege ≤ 1 := delegated.1
      apply MemSynced.setPc
      apply rvSyncMemPrivilege_synced
      · intro set
        simp only [RvCpu.mprv] at set
        rw [rvTrapMstatusS_mprv _ low] at set
        have machine := synced.machine set
        bv_omega
      · exact (by decide : (1 : U8) ≤ 3)
  · apply MemSynced.setPc
    exact rvSyncMemPrivilege_synced (fun _ => rfl) (by decide : (3 : U8) ≤ 3)

theorem statusMpp_le (mstatus : U64) : statusMpp mstatus ≤ 3 := by
  rw [statusMpp_field]
  generalize (mstatus >>> rvStatusMppBaseBit).setWidth 2 = field
  revert field
  decide

theorem rvMret_synced (cpu : RvCpu) : MemSynced (rvMret cpu) := by
  apply MemSynced.setPc
  apply rvSyncMemPrivilege_synced
  · intro set
    simp only [RvCpu.mprv] at set ⊢
    split at set
    · simp [bit, rvStatusMprvBit] at set
    · next high => exact not_not.mp high
  · exact statusMpp_le _

theorem rvSret_synced (cpu : RvCpu) : MemSynced (rvSret cpu) := by
  apply MemSynced.setPc
  apply rvSyncMemPrivilege_synced
  · intro set
    simp [RvCpu.mprv, bit, rvStatusMprvBit] at set
  · simp only
    cases cpu.csr.mstatus.getLsbD rvStatusSppBit <;> decide

theorem rvSstatusWrite_mprv (mstatus wdata : U64) :
    ((mstatus &&& ~~~rvSstatusMask) ||| (wdata &&& rvSstatusMask)).getLsbD rvStatusMprvBit =
      mstatus.getLsbD rvStatusMprvBit := by
  have outside : rvSstatusMask.getLsbD rvStatusMprvBit = false := by decide
  rw [BitField.getLsbD_replace, outside]
  rfl

theorem rvSstatusWrite_statusMpp (mstatus wdata : U64) :
    statusMpp ((mstatus &&& ~~~rvSstatusMask) ||| (wdata &&& rvSstatusMask)) =
      statusMpp mstatus := by
  have outside : ∀ i < 2, rvSstatusMask.getLsbD (rvStatusMppBaseBit + i) = false := by decide
  rw [statusMpp_field, statusMpp_field]
  congr 1
  apply BitVec.eq_of_getLsbD_eq
  intro i inside
  rw [BitVec.getLsbD_setWidth, BitVec.getLsbD_setWidth, BitVec.getLsbD_ushiftRight,
    BitVec.getLsbD_ushiftRight, BitField.getLsbD_replace, outside i inside]
  rfl

/-- Only a core in M-mode may write `mstatus`. -/
theorem csrGrants_mstatus {cpu : RvCpu} {index : Nat} (grants : CsrGrants cpu index .mstatus)
    (bounded : cpu.privilege ≤ 3) : cpu.privilege = 3 := by
  have machine : 3 ≤ cpu.privilege.toNat := grants.level
  bv_omega

theorem rvCsrWriteReg_synced {cpu cpu' : RvCpu} {index : Nat} {reg : RvCsr} {wdata : U64}
    (grants : CsrGrants cpu index reg) (written : rvCsrWriteReg cpu reg wdata = some cpu')
    (synced : MemSynced cpu) : MemSynced cpu' := by
  by_cases mstatus : reg = .mstatus
  · subst mstatus
    have machine := csrGrants_mstatus grants synced.bounded
    simp only [rvCsrWriteReg, Option.some.injEq] at written
    rw [← written]
    exact rvSyncMemPrivilege_synced (fun _ => machine) synced.bounded
  · obtain ⟨privilege, memPrivilege⟩ := rvCsrWriteReg_privilege written
    have status := rvCsrWriteReg_mstatus written
    rw [if_neg mstatus] at status
    have mprv : cpu'.mprv = cpu.mprv := by
      rw [RvCpu.mprv, status]
      split
      · exact rvSstatusWrite_mprv _ _
      · rfl
    have mpp : statusMpp cpu'.csr.mstatus = statusMpp cpu.csr.mstatus := by
      rw [status]
      split
      · exact rvSstatusWrite_statusMpp _ _
      · rfl
    refine ⟨?_, ?_, ?_⟩
    · rw [memPrivilege mstatus, mprv, mpp, privilege]
      exact synced.cached
    · rw [mprv, privilege]
      exact synced.machine
    · rw [privilege]
      exact synced.bounded

/-! ### Runs -/

/-- The part of a core that its effective privilege rests on. -/
def RvCpu.levels (cpu : RvCpu) : U64 × U8 × U8 :=
  (cpu.csr.mstatus, cpu.privilege, cpu.memPrivilege)

theorem MemSynced.of_levels {cpu cpu' : RvCpu} (same : cpu'.levels = cpu.levels)
    (synced : MemSynced cpu) : MemSynced cpu' := by
  simp only [RvCpu.levels, Prod.mk.injEq] at same
  rcases same with ⟨mstatus, privilege, memPrivilege⟩
  refine ⟨?_, ?_, ?_⟩
  · rw [memPrivilege, privilege, RvCpu.mprv, mstatus]
    exact synced.cached
  · rw [privilege, RvCpu.mprv, mstatus]
    exact synced.machine
  · rw [privilege]
    exact synced.bounded

theorem memSynced_invariant {mc : EmuConfig δ} (hooks : mc.HooksKeep RvCpu.levels) :
    CoreInvariant mc MemSynced where
  data := SameControl.synced
  enter := fun trap synced => rvTrapEnter_synced synced trap
  write := rvCsrWriteReg_synced
  mret := fun _ _ => rvMret_synced _
  sret := fun _ => rvSret_synced _
  hook := fun found m h trap i => MemSynced.of_levels (hooks _ _ found m h trap i)

theorem emuMachineInit_synced (device : δ) (h : Nat) :
    MemSynced ((emuMachineInit device).cpus h) := by
  refine rvSyncMemPrivilege_synced (fun _ => rfl) (by decide : (3 : U8) ≤ 3)

/-- From `emu_machine_init`, after every run of instructions, traps and
interrupts whose TLB stores stay in their arrays, each core's cache holds its
effective privilege, and MPRV is set in M-mode only. -/
theorem memSynced_run (mc : EmuConfig δ) (hooks : mc.HooksKeep RvCpu.levels) (device : δ)
    (events : List (MachineEvent δ)) (h : Nat)
    (inside : StepsMeet (hostStep mc) (StoresInArray mc) (emuMachineInit device) events) :
    MemSynced ((run (hostStep mc) (emuMachineInit device) events).cpus h) := by
  rw [hostRun_eq inside]
  exact (memSynced_invariant hooks).run (emuMachineInit_synced device h) events

/-- Setting MPRV in M-mode and returning to U-mode. -/
theorem memSynced_run_mret :
    MemSynced ((run (hostStep (EmuConfig.ramOnly 0 0x1000 1)) (emuMachineInit ())
      [.insn 0 0x000200b7, .insn 0 0x30009073, .insn 0 0x30200073]).cpus 0) :=
  memSynced_run (EmuConfig.ramOnly 0 0x1000 1) (fun _ _ found => by cases found) ()
    [.insn 0 0x000200b7, .insn 0 0x30009073, .insn 0 0x30200073] 0
    (storesInArray_run (fun _ => rfl) (emuMachineInit_inArray ())
      ⟨by decide, by decide, by decide, trivial⟩)

/-- The PTE of an evicting load is stored over `mstatus` and sets MPRV in U-mode. -/
theorem memSynced_overwritten : ¬∀ (mc : EmuConfig Unit), mc.HooksKeep RvCpu.levels →
    ∀ (device : Unit) (events : List (MachineEvent Unit)) (h : Nat),
      MemSynced ((run (hostStep mc) (emuMachineInit device) events).cpus h) := by
  intro always
  obtain ⟨mstatus, _, level⟩ := spill_mstatus
  have same : run (hostStep spillConfig) spillStart (spillVisits 68) =
      run (hostStep spillConfig) (emuMachineInit ()) (spillSetup ++ spillVisits 68) :=
    (run_append _ _ _ _).symm
  have synced := always spillConfig (fun _ _ found => by cases found) ()
    (spillSetup ++ spillVisits 68) 0
  rw [← same] at synced
  generalize run (hostStep spillConfig) spillStart (spillVisits 68) = m at mstatus level synced
  have mprv : (m.cpus 0).mprv = true := by
    rw [RvCpu.mprv, mstatus]
    decide +kernel
  have machine := synced.machine mprv
  exact absurd (level.symm.trans machine) (by decide)

end Riscmulator
