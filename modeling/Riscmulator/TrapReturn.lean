import Riscmulator.MemPrivilege

/-! A trap followed by the return that matches it. -/

namespace Riscmulator

open Transition BitField

variable {δ : Type}

/-! ### The bits of `mstatus` -/

theorem statusMpp_congr {left right : U64}
    (field : ∀ i < 2, left.getLsbD (rvStatusMppBaseBit + i) =
      right.getLsbD (rvStatusMppBaseBit + i)) : statusMpp left = statusMpp right := by
  rw [statusMpp_field, statusMpp_field]
  congr 1
  apply BitVec.eq_of_getLsbD_eq
  intro i inside
  rw [BitVec.getLsbD_setWidth, BitVec.getLsbD_setWidth, BitVec.getLsbD_ushiftRight,
    BitVec.getLsbD_ushiftRight, field i inside]

theorem clearMpp_getLsbD (mstatus : U64) (i : Nat) :
    (mstatus &&& ~~~(3#64 <<< rvStatusMppBaseBit)).getLsbD i =
      (mstatus.getLsbD i && !(decide (i = 11) || decide (i = 12))) := by
  have three : (3#64 : U64) = (3#2).setWidth 64 := by decide
  have field : (3#64 <<< rvStatusMppBaseBit).getLsbD i = (decide (i = 11) || decide (i = 12)) := by
    rw [three, getLsbD_shiftField _ (by decide), rvStatusMppBaseBit]
    by_cases low : i = 11
    · simp [low]
    by_cases high : i = 12
    · simp [high]
    · by_cases above : 11 ≤ i
      · rw [BitVec.getLsbD_of_ge _ _ (by omega)]
        simp [low, high]
      · simp [low, high, above]
  rw [getLsbD_and_not, field]

/-- A privilege fits the two bits of MPP. -/
theorem level_getLsbD {privilege : U8} (bounded : privilege ≤ 3) (k : Nat) :
    privilege.getLsbD k =
      (decide (k = 0) && privilege.getLsbD 0 || decide (k = 1) && privilege.getLsbD 1) := by
  have narrow : privilege = (privilege.setWidth 2).setWidth 8 := by
    revert privilege
    decide
  by_cases inside : k < 2
  · have cases : k = 0 ∨ k = 1 := by omega
    rcases cases with rfl | rfl <;> simp
  · rw [narrow, BitVec.getLsbD_setWidth, BitVec.getLsbD_of_ge (privilege.setWidth 2) k (by omega)]
    have first : k ≠ 0 := by omega
    have second : k ≠ 1 := by omega
    simp [first, second]

/-- A privilege shifted into its field. -/
theorem levelField_getLsbD {privilege : U8} (bounded : privilege ≤ 3) {n : Nat} (fits : n ≤ 56)
    (i : Nat) : (privilege.setWidth 64 <<< n).getLsbD i =
      (decide (i = n) && privilege.getLsbD 0 || decide (i = n + 1) && privilege.getLsbD 1) := by
  rw [getLsbD_shiftField _ (by omega), level_getLsbD bounded]
  by_cases below : i < n
  · have outside : ¬n ≤ i := by omega
    have first : i ≠ n := by omega
    have second : i ≠ n + 1 := by omega
    simp [outside, first, second]
  · have above : n ≤ i := by omega
    have first : i - n = 0 ↔ i = n := by omega
    have second : i - n = 1 ↔ i = n + 1 := by omega
    simp only [above, first, second, decide_true, Bool.true_and]

theorem rvTrapMstatusM_getLsbD (mstatus : U64) {privilege : U8} (bounded : privilege ≤ 3)
    (i : Nat) : (rvTrapMstatusM mstatus privilege).getLsbD i =
      if i = 7 then mstatus.getLsbD 3
      else if i = 3 then false
      else if i = 11 then privilege.getLsbD 0
      else if i = 12 then privilege.getLsbD 1
      else mstatus.getLsbD i := by
  simp only [rvTrapMstatusM, bit, BitVec.getLsbD_or, getLsbD_clearBit, clearMpp_getLsbD]
  rw [getLsbD_shiftFlag _ (by decide), levelField_getLsbD bounded (by decide)]
  simp only [rvStatusMpieBit, rvStatusMieBit, rvStatusMppBaseBit]
  split_ifs <;> simp_all

theorem rvTrapMstatusS_getLsbD (mstatus : U64) {privilege : U8} (low : privilege ≤ 1) (i : Nat) :
    (rvTrapMstatusS mstatus privilege).getLsbD i =
      if i = 5 then mstatus.getLsbD 1
      else if i = 1 then false
      else if i = 8 then privilege.getLsbD 0
      else mstatus.getLsbD i := by
  have narrow : privilege.getLsbD 1 = false := by
    revert privilege
    decide
  have bounded : privilege ≤ 3 := by bv_omega
  simp only [rvTrapMstatusS, bit, BitVec.getLsbD_or, getLsbD_clearBit]
  rw [getLsbD_shiftFlag _ (by decide), levelField_getLsbD bounded (by decide), narrow]
  simp only [rvStatusSpieBit, rvStatusSieBit, rvStatusSppBit]
  split_ifs <;> simp_all

/-- `mstatus` as `mret` computes it, before MPP and MPRV are cleared. -/
def rvMretMstatus (mstatus : U64) : U64 :=
  (mstatus &&& ~~~bit rvStatusMieBit) |||
    ((BitVec.ofBool (mstatus.getLsbD rvStatusMpieBit)).setWidth 64 <<< rvStatusMieBit |||
      bit rvStatusMpieBit)

theorem rvMretMstatus_getLsbD (mstatus : U64) (i : Nat) :
    (rvMretMstatus mstatus).getLsbD i =
      if i = 3 then mstatus.getLsbD 7 else if i = 7 then true else mstatus.getLsbD i := by
  simp only [rvMretMstatus, bit, BitVec.getLsbD_or, getLsbD_clearBit]
  rw [getLsbD_shiftFlag _ (by decide), getLsbD_one_shiftLeft]
  simp only [rvStatusMpieBit, rvStatusMieBit]
  split_ifs <;> simp_all

/-- `mret` returns to the level in MPP. -/
theorem rvMret_privilege (cpu : RvCpu) : (rvMret cpu).privilege = statusMpp cpu.csr.mstatus := by
  have level : (rvMret cpu).privilege = statusMpp (rvMretMstatus cpu.csr.mstatus) := rfl
  rw [level]
  apply statusMpp_congr
  intro i small
  rw [rvMretMstatus_getLsbD, rvStatusMppBaseBit, if_neg (by omega), if_neg (by omega)]

theorem rvMret_mstatus (cpu : RvCpu) : (rvMret cpu).csr.mstatus =
    if statusMpp cpu.csr.mstatus ≠ 3 then
      (rvMretMstatus cpu.csr.mstatus &&& ~~~(3#64 <<< rvStatusMppBaseBit)) &&&
        ~~~bit rvStatusMprvBit
    else rvMretMstatus cpu.csr.mstatus &&& ~~~(3#64 <<< rvStatusMppBaseBit) := by
  rw [← rvMret_privilege]
  rfl

/-- MPRV survives `mret` to M-mode only. -/
theorem rvMret_getLsbD (cpu : RvCpu) (i : Nat) :
    (rvMret cpu).csr.mstatus.getLsbD i =
      if i = 3 then cpu.csr.mstatus.getLsbD 7
      else if i = 7 then true
      else if i = 11 then false
      else if i = 12 then false
      else if i = 17 then cpu.csr.mstatus.getLsbD 17 && decide (statusMpp cpu.csr.mstatus = 3)
      else cpu.csr.mstatus.getLsbD i := by
  have kept : (rvMretMstatus cpu.csr.mstatus &&& ~~~(3#64 <<< rvStatusMppBaseBit)).getLsbD i =
      if i = 3 then cpu.csr.mstatus.getLsbD 7
      else if i = 7 then true
      else if i = 11 then false
      else if i = 12 then false
      else cpu.csr.mstatus.getLsbD i := by
    rw [clearMpp_getLsbD, rvMretMstatus_getLsbD]
    split_ifs <;> simp_all
  rw [rvMret_mstatus]
  split
  · next low =>
      rw [bit, getLsbD_clearBit, kept, rvStatusMprvBit]
      split_ifs <;> simp_all
  · next machine =>
      rw [kept, not_not.mp machine]
      split_ifs <;> simp_all

theorem rvSret_getLsbD (cpu : RvCpu) (i : Nat) :
    (rvSret cpu).csr.mstatus.getLsbD i =
      if i = 1 then cpu.csr.mstatus.getLsbD 5
      else if i = 5 then true
      else if i = 8 then false
      else if i = 17 then false
      else cpu.csr.mstatus.getLsbD i := by
  simp only [rvSret, rvSyncMemPrivilege_csr, bit, BitVec.getLsbD_or, getLsbD_clearBit]
  rw [getLsbD_shiftFlag _ (by decide), getLsbD_one_shiftLeft]
  simp only [rvStatusSpieBit, rvStatusSieBit, rvStatusSppBit, rvStatusMprvBit]
  split_ifs <;> simp_all

/-! ### The pair -/

/-- The return instruction of the handler that a trap enters. -/
def rvTrapReturnInsn (cpu : RvCpu) (trap : RvTrap) : U32 :=
  if rvTrapDelegated cpu trap then 0x10200073 else 0x30200073

/-- The bits of `mstatus` that belong to the pair: the saved enable and the
saved privilege of the handler's level. -/
def rvTrapSavedBits (cpu : RvCpu) (trap : RvTrap) : List Nat :=
  if rvTrapDelegated cpu trap then [rvStatusSpieBit, rvStatusSppBit]
  else [rvStatusMpieBit, rvStatusMppBaseBit, rvStatusMppBaseBit + 1]

/-- The registers that a trap writes at the handler's level, and `mstatus`. -/
def RvCsrState.withTrap (csr : RvCsrState) (delegated : Bool) (trap : RvTrap) (mstatus : U64) :
    RvCsrState :=
  if delegated then
    { csr with sepc := trap.epc, scause := trap.cause, stval := trap.tval, mstatus := mstatus }
  else { csr with mepc := trap.epc, mcause := trap.cause, mtval := trap.tval, mstatus := mstatus }

/-- `cpu'` is `cpu` after a trap and its return: the core goes on at `trap.epc`
and nothing else has changed but the registers of the handler's own level. -/
structure TrapReturned (cpu : RvCpu) (trap : RvTrap) (cpu' : RvCpu) : Prop where
  core : ∃ memPrivilege mstatus, cpu' = { cpu with
    pc := trap.epc
    memPrivilege := memPrivilege
    csr := cpu.csr.withTrap (rvTrapDelegated cpu trap) trap mstatus }
  memPrivilege : cpu.mprv = false → cpu'.memPrivilege = cpu.privilege
  status : ∀ i, i ∉ rvTrapSavedBits cpu trap →
    cpu'.csr.mstatus.getLsbD i = cpu.csr.mstatus.getLsbD i

theorem statusMpp_trapM (mstatus : U64) {privilege : U8} (bounded : privilege ≤ 3) :
    statusMpp (rvTrapMstatusM mstatus privilege) = privilege := by
  have narrow : privilege = (privilege.setWidth 2).setWidth 8 := by
    revert privilege
    decide
  rw [statusMpp_field, narrow]
  congr 1
  apply BitVec.eq_of_getLsbD_eq
  intro i inside
  rw [BitVec.getLsbD_setWidth, BitVec.getLsbD_ushiftRight, ← narrow,
    rvTrapMstatusM_getLsbD mstatus bounded, BitVec.getLsbD_setWidth]
  have cases : i = 0 ∨ i = 1 := by omega
  rcases cases with rfl | rfl <;> simp [rvStatusMppBaseBit]

theorem rvMret_trapEnterM {cpu : RvCpu} (synced : MemSynced cpu) {trap : RvTrap}
    (direct : rvTrapDelegated cpu trap = false) :
    TrapReturned cpu trap (rvMret (rvTrapEnterM cpu trap)) := by
  have saved : statusMpp (rvTrapEnterM cpu trap).csr.mstatus = cpu.privilege :=
    statusMpp_trapM _ synced.bounded
  have level : (rvMret (rvTrapEnterM cpu trap)).privilege = cpu.privilege := by
    rw [rvMret_privilege, saved]
  have status : ∀ i, i ∉ rvTrapSavedBits cpu trap →
      (rvMret (rvTrapEnterM cpu trap)).csr.mstatus.getLsbD i = cpu.csr.mstatus.getLsbD i := by
    intro i other
    have entered : (rvTrapEnterM cpu trap).csr.mstatus =
        rvTrapMstatusM cpu.csr.mstatus cpu.privilege := rfl
    simp only [rvTrapSavedBits, direct, rvStatusMpieBit, rvStatusMppBaseBit, List.mem_cons,
      List.not_mem_nil, not_or, Bool.false_eq_true, if_false] at other
    rcases other with ⟨notMpie, notLow, notHigh, _⟩
    rw [rvMret_getLsbD, saved, entered]
    simp only [rvTrapMstatusM_getLsbD _ synced.bounded, notMpie, notLow, notHigh, if_false]
    by_cases mie : i = 3
    · simp [mie]
    by_cases mprv : i = 17
    · -- MPRV was set in M-mode only, where `mret` goes back to.
      subst mprv
      cases set : cpu.csr.mstatus.getLsbD 17 with
      | false => simp
      | true => simp [synced.machine set]
    · simp [mie, mprv]
  refine ⟨⟨(rvMret (rvTrapEnterM cpu trap)).memPrivilege,
    (rvMret (rvTrapEnterM cpu trap)).csr.mstatus, ?_⟩, ?_, status⟩
  · rw [← level, direct]
    rfl
  · intro clear
    have mprv : (rvMret (rvTrapEnterM cpu trap)).mprv = false := by
      rw [RvCpu.mprv, status _ (by simp [rvTrapSavedBits, direct, rvStatusMprvBit,
        rvStatusMpieBit, rvStatusMppBaseBit])]
      exact clear
    rw [(rvMret_synced (rvTrapEnterM cpu trap)).cached, mprv]
    exact level

theorem rvSret_trapEnterS {cpu : RvCpu} (synced : MemSynced cpu) {trap : RvTrap}
    (delegated : rvTrapDelegated cpu trap = true) :
    TrapReturned cpu trap (rvSret (rvTrapEnterS cpu trap)) := by
  have low : cpu.privilege ≤ 1 := by
    simp only [rvTrapDelegated, Bool.and_eq_true, decide_eq_true_eq] at delegated
    exact delegated.1
  have below : cpu.privilege ≠ 3 := by bv_omega
  have entered : (rvTrapEnterS cpu trap).csr.mstatus =
      rvTrapMstatusS cpu.csr.mstatus cpu.privilege := rfl
  have level : (rvSret (rvTrapEnterS cpu trap)).privilege = cpu.privilege := by
    have field : (rvSret (rvTrapEnterS cpu trap)).privilege =
        (BitVec.ofBool ((rvTrapEnterS cpu trap).csr.mstatus.getLsbD rvStatusSppBit)).setWidth 8 :=
      rfl
    rw [field, entered, rvTrapMstatusS_getLsbD _ low, rvStatusSppBit]
    have cases : cpu.privilege = 0 ∨ cpu.privilege = 1 := by bv_omega
    rcases cases with user | supervisor
    · rw [user]
      rfl
    · rw [supervisor]
      rfl
  have status : ∀ i, i ∉ rvTrapSavedBits cpu trap →
      (rvSret (rvTrapEnterS cpu trap)).csr.mstatus.getLsbD i = cpu.csr.mstatus.getLsbD i := by
    intro i other
    simp only [rvTrapSavedBits, delegated, rvStatusSpieBit, rvStatusSppBit, List.mem_cons,
      List.not_mem_nil, not_or, if_true] at other
    rcases other with ⟨notSpie, notSpp, _⟩
    rw [rvSret_getLsbD, entered]
    simp only [rvTrapMstatusS_getLsbD _ low, notSpie, notSpp, if_false]
    by_cases sie : i = 1
    · simp [sie]
    by_cases mprv : i = 17
    · -- `sret` clears MPRV, which is clear below M-mode.
      have clear := (synced.below below).1
      rw [RvCpu.mprv, rvStatusMprvBit] at clear
      subst mprv
      rw [clear]
      simp
    · simp [sie, mprv]
  refine ⟨⟨(rvSret (rvTrapEnterS cpu trap)).memPrivilege,
    (rvSret (rvTrapEnterS cpu trap)).csr.mstatus, ?_⟩, ?_, status⟩
  · rw [← level, delegated]
    rfl
  · intro clear
    have mprv : (rvSret (rvTrapEnterS cpu trap)).mprv = false := by
      rw [RvCpu.mprv, status _ (by simp [rvTrapSavedBits, delegated, rvStatusMprvBit,
        rvStatusSpieBit, rvStatusSppBit])]
      exact clear
    rw [(rvSret_synced (rvTrapEnterS cpu trap)).cached, mprv]
    exact level

/-- Executing `mret` in M-mode and `sret` in S-mode with TSR clear. -/
theorem rvForcefeedInsn_mret (mc : EmuConfig δ) {m : EmuMachine δ} {h : Nat}
    (machine : (m.cpus h).privilege = 3) :
    rvForcefeedInsn mc m h 0x30200073 = m.setCpu h (rvMret (m.cpus h)) := by
  have op : rvOpMajOf 0x30200073 = some .system := by decide
  have form : ¬rvInsnFunct3 0x30200073 ≠ 0 := by decide
  simp only [rvForcefeedInsn, op, rvBaseSystem, if_neg form]
  rw [if_pos ⟨trivial, machine⟩]

theorem rvForcefeedInsn_sret (mc : EmuConfig δ) {m : EmuMachine δ} {h : Nat}
    (legal : rvSupervisorIllegal (m.cpus h) rvStatusTsrBit = false) :
    rvForcefeedInsn mc m h 0x10200073 = m.setCpu h (rvSret (m.cpus h)) := by
  have op : rvOpMajOf 0x10200073 = some .system := by decide
  have form : ¬rvInsnFunct3 0x10200073 ≠ 0 := by decide
  simp only [rvForcefeedInsn, op, rvBaseSystem, if_neg form, legal]
  simp

/-- A handler in S-mode may execute `sret` when TSR was clear before the trap. -/
theorem rvTrapEnterS_sret {cpu : RvCpu} {trap : RvTrap}
    (delegated : rvTrapDelegated cpu trap = true)
    (tsr : cpu.csr.mstatus.getLsbD rvStatusTsrBit = false) :
    rvSupervisorIllegal (rvTrapEnterS cpu trap) rvStatusTsrBit = false := by
  simp only [rvTrapDelegated, Bool.and_eq_true, decide_eq_true_eq] at delegated
  have level : (rvTrapEnterS cpu trap).privilege = 1 := rfl
  have entered : (rvTrapEnterS cpu trap).csr.mstatus =
      rvTrapMstatusS cpu.csr.mstatus cpu.privilege := rfl
  have kept : (rvTrapEnterS cpu trap).csr.mstatus.getLsbD rvStatusTsrBit = false := by
    rw [entered, rvTrapMstatusS_getLsbD _ delegated.1]
    exact tsr
  rw [rvSupervisorIllegal, kept, level]
  rfl

/-- A trap that no hook takes enters its handler. -/
theorem rvDoTrap_unhooked {mc : EmuConfig δ} {trap : RvTrap} (m : EmuMachine δ) (h : Nat)
    (unhooked : trap.isInterrupt = true ∨ mc.trapHook trap.cause.toNat = none) :
    rvDoTrap mc m h trap = m.setCpu h (rvTrapEnter (m.cpus h) trap) := by
  rcases unhooked with interrupt | none
  · exact rvDoTrap_interrupt mc m h interrupt
  · simp only [rvDoTrap, none, ite_self]

/-- In every state reached from `emu_machine_init` by events whose TLB stores stay in
their arrays, a trap that no hook takes, followed by the return instruction of
its handler, resumes the core where the trap says it was. Nothing but this core
has changed. -/
theorem trapReturned_run (mc : EmuConfig δ) (hooks : mc.HooksKeep RvCpu.levels) (device : δ)
    (events : List (MachineEvent δ)) (h : Nat) {m : EmuMachine δ}
    (reached : m = run (hostStep mc) (emuMachineInit device) events)
    (inside : StepsMeet (hostStep mc) (StoresInArray mc) (emuMachineInit device) events)
    (trap : RvTrap)
    (unhooked : trap.isInterrupt = true ∨ mc.trapHook trap.cause.toNat = none)
    (tsr : rvTrapDelegated (m.cpus h) trap = true →
      (m.cpus h).csr.mstatus.getLsbD rvStatusTsrBit = false) :
    ∃ cpu, TrapReturned (m.cpus h) trap cpu ∧
      rvForcefeedInsn mc (rvDoTrap mc m h trap) h (rvTrapReturnInsn (m.cpus h) trap) =
        m.setCpu h cpu := by
  have synced : MemSynced (m.cpus h) := by
    rw [reached, hostRun_eq inside]
    exact (memSynced_invariant hooks).run (emuMachineInit_synced device h) events
  have twice : ∀ first last : RvCpu, (m.setCpu h first).setCpu h last = m.setCpu h last := by
    intro first last
    simp [EmuMachine.setCpu]
  rw [rvDoTrap_unhooked m h unhooked, rvTrapEnter, rvTrapReturnInsn]
  cases delegated : rvTrapDelegated (m.cpus h) trap with
  | false =>
      refine ⟨_, rvMret_trapEnterM synced delegated, ?_⟩
      rw [if_neg (by simp), if_neg (by simp), rvForcefeedInsn_mret]
      · rw [EmuMachine.setCpu_same, twice]
      · rw [EmuMachine.setCpu_same]
        rfl
  | true =>
      refine ⟨_, rvSret_trapEnterS synced delegated, ?_⟩
      rw [if_pos rfl, if_pos rfl, rvForcefeedInsn_sret]
      · rw [EmuMachine.setCpu_same, twice]
      · rw [EmuMachine.setCpu_same]
        exact rvTrapEnterS_sret delegated (tsr delegated)

/-- U-mode after its calls were delegated. -/
def delegatedUser : EmuMachine Unit :=
  run (hostStep (EmuConfig.ramOnly 0 0x1000 1)) (emuMachineInit ())
    [.insn 0 0x10000093, .insn 0 0x30209073, .insn 0 0x30200073]

/-- A call from U-mode that S-mode handles. -/
theorem trapReturned_run_ecall :
    ∃ cpu, TrapReturned (delegatedUser.cpus 0) ⟨0x80, 0, RvCause.ecallU.code⟩ cpu ∧
      rvForcefeedInsn (EmuConfig.ramOnly 0 0x1000 1)
          (rvDoTrap (EmuConfig.ramOnly 0 0x1000 1) delegatedUser 0 ⟨0x80, 0, RvCause.ecallU.code⟩) 0
          (rvTrapReturnInsn (delegatedUser.cpus 0) ⟨0x80, 0, RvCause.ecallU.code⟩) =
        delegatedUser.setCpu 0 cpu :=
  trapReturned_run (EmuConfig.ramOnly 0 0x1000 1) (fun _ _ found => by cases found) ()
    [.insn 0 0x10000093, .insn 0 0x30209073, .insn 0 0x30200073] 0 rfl
    (storesInArray_run (fun _ => rfl) (emuMachineInit_inArray ())
      ⟨by decide, by decide, by decide, trivial⟩)
    ⟨0x80, 0, RvCause.ecallU.code⟩ (Or.inr rfl) (fun _ => by decide)

/-- A call from U-mode. -/
def spillCall : RvTrap := ⟨0, 0, RvCause.ecallU.code⟩

/-- Where a trap to M-mode was taken below M-mode, `mret` leaves MPRV clear. -/
theorem rvMret_trapEnterM_mprv {cpu : RvCpu} (level : cpu.privilege < 3) (trap : RvTrap) :
    (rvMret (rvTrapEnterM cpu trap)).csr.mstatus.getLsbD rvStatusMprvBit = false := by
  have mpp : statusMpp (rvTrapEnterM cpu trap).csr.mstatus = cpu.privilege :=
    statusMpp_trapM _ (BitVec.le_of_lt level)
  have below : cpu.privilege ≠ 3 := BitVec.ne_of_lt level
  rw [rvMret_getLsbD, mpp, decide_eq_false below, Bool.and_false]
  rfl

/-- With a PTE stored over `mstatus` MPRV is set in U-mode, and `mret` clears it. -/
theorem trapReturned_overwritten : ¬∀ (mc : EmuConfig Unit), mc.HooksKeep RvCpu.levels →
    ∀ (device : Unit) (events : List (MachineEvent Unit)) (h : Nat) (m : EmuMachine Unit),
      m = run (hostStep mc) (emuMachineInit device) events →
      ∀ trap : RvTrap, (trap.isInterrupt = true ∨ mc.trapHook trap.cause.toNat = none) →
        (rvTrapDelegated (m.cpus h) trap = true →
          (m.cpus h).csr.mstatus.getLsbD rvStatusTsrBit = false) →
        ∃ cpu, TrapReturned (m.cpus h) trap cpu ∧
          rvForcefeedInsn mc (rvDoTrap mc m h trap) h (rvTrapReturnInsn (m.cpus h) trap) =
            m.setCpu h cpu := by
  intro always
  obtain ⟨mstatus, medeleg, level⟩ := spill_mstatus
  have same : run (hostStep spillConfig) spillStart (spillVisits 68) =
      run (hostStep spillConfig) (emuMachineInit ()) (spillSetup ++ spillVisits 68) :=
    (run_append _ _ _ _).symm
  generalize run (hostStep spillConfig) spillStart (spillVisits 68) = m at mstatus medeleg level same
  have direct : rvTrapDelegated (m.cpus 0) spillCall = false := by
    have exception : spillCall.isInterrupt = false := by decide
    have undelegated : (0 : U64).getLsbD spillCall.causeLow = false := BitVec.getLsbD_zero
    rw [rvTrapDelegated, exception, if_neg Bool.false_ne_true, medeleg, undelegated,
      Bool.and_false]
  have unhooked : spillCall.isInterrupt = true ∨ spillConfig.trapHook spillCall.cause.toNat = none :=
    Or.inr rfl
  obtain ⟨cpu, returned, executed⟩ := always spillConfig (fun _ _ found => by cases found) ()
    (spillSetup ++ spillVisits 68) 0 m same spillCall unhooked
    (fun delegated => by cases direct.symm.trans delegated)
  have machine : ((m.setCpu 0 (rvTrapEnterM (m.cpus 0) spillCall)).cpus 0).privilege = 3 := by
    rw [EmuMachine.setCpu_same]
    rfl
  rw [rvDoTrap_unhooked m 0 unhooked, rvTrapEnter, rvTrapReturnInsn, direct] at executed
  simp only [Bool.false_eq_true, if_false] at executed
  rw [rvForcefeedInsn_mret _ machine, EmuMachine.setCpu_same] at executed
  have core : rvMret (rvTrapEnterM (m.cpus 0) spillCall) = cpu := by
    have cores := congrArg (fun m => m.cpus 0) executed
    simpa only [EmuMachine.setCpu_same] using cores
  have kept := returned.status rvStatusMprvBit (by
    simp [rvTrapSavedBits, direct, rvStatusMprvBit, rvStatusMpieBit, rvStatusMppBaseBit])
  have below : (m.cpus 0).privilege < 3 := by
    rw [level]
    decide
  rw [← core, rvMret_trapEnterM_mprv below, mstatus] at kept
  exact absurd kept (by decide +kernel)

end Riscmulator
