import Riscmulator.InterruptRouting
import Riscmulator.Isolation
import Riscmulator.Outcomes

/-! The way into M-mode: a hart below it gets there by a trap and nowhere but to the handler
that M-mode has set up, and where every trap is delegated not at all. The handler finds
recorded what was trapped and where. -/

namespace Riscmulator

open Transition

variable {δ : Type}

/-! ### Traps that an event takes -/

/-- Executing the word hands this exception to `rv_do_trap` on this machine, whatever the
hooks are. -/
def RaisesOn (mc : EmuConfig δ) (m : EmuMachine δ) (h : Nat) (insn : U32) (m' : EmuMachine δ)
    (trap : RvTrap) : Prop :=
  trap.isInterrupt = false ∧ ∀ hooks,
    rvForcefeedInsn (mc.hooked hooks) m h insn = rvDoTrap (mc.hooked hooks) m' h trap

/-- The event takes this trap on hart `h`, whose core is then `taken`. -/
inductive TakesTrap (mc : EmuConfig δ) (m : EmuMachine δ) (h : Nat) :
    MachineEvent δ → RvCpu → RvTrap → Prop
  | fault {m' : EmuMachine δ} {trap : RvTrap} (fetched : rvFetchInsn mc m h = .fault m' trap)
      (same : CoreFrame (m.cpus h) (m'.cpus h)) (epc : trap.epc = (m.cpus h).pc)
      (exception : trap.isInterrupt = false) : TakesTrap mc m h (.step h) (m'.cpus h) trap
  | illegal {m' : EmuMachine δ} {hw : U16} (fetched : rvFetchInsn mc m h = .illegal m' hw)
      (level : (m'.cpus h).privilege = (m.cpus h).privilege) :
      TakesTrap mc m h (.step h) (m'.cpus h)
        ⟨(m.cpus h).pc, (hw.setWidth 32).setWidth 64, RvCause.iillegal.code⟩
  | raised {m' m'' : EmuMachine δ} {insn : U32} {trap : RvTrap}
      (fetched : rvFetchInsn mc m h = .word m' insn) (raises : RaisesOn mc m' h insn m'' trap)
      (level : (m''.cpus h).privilege = (m.cpus h).privilege) (epc : trap.epc = (m.cpus h).pc) :
      TakesTrap mc m h (.step h) (m''.cpus h) trap
  /-- An interrupt after the word, or after the trap to S-mode that the word has taken. -/
  | interrupted {m' m'' : EmuMachine δ} {insn : U32} {i : Nat}
      (fetched : rvFetchInsn mc m h = .word m' insn) (executed : m'' = rvForcefeedInsn mc m' h insn)
      (cause : rvInterruptCause (m''.cpus h) = some i) :
      TakesTrap mc m h (.step h) (m''.cpus h) (rvInterruptTrap (m''.cpus h).pc i)
  | insn {m' : EmuMachine δ} {insn : U32} {trap : RvTrap} (raises : RaisesOn mc m h insn m' trap)
      (level : (m'.cpus h).privilege = (m.cpus h).privilege) (epc : trap.epc = (m.cpus h).epc) :
      TakesTrap mc m h (.insn h insn) (m'.cpus h) trap
  | trap (trap : RvTrap) : TakesTrap mc m h (.trap h trap) (m.cpus h) trap
  | interrupts {i : Nat} (cause : rvInterruptCause (m.cpus h) = some i) :
      TakesTrap mc m h (.interrupts h) (m.cpus h) (rvInterruptTrap (m.cpus h).pc i)

/-- The core has just entered the handler that `first` has set up for M-mode, from `taken`,
for this trap. -/
structure EnteredMachine (first taken : RvCpu) (trap : RvTrap) (cpu : RvCpu) : Prop where
  level : cpu.privilege = 3
  pc : cpu.pc = rvTrapPc first.csr.mtvec trap
  direct : (if trap.isInterrupt then first.csr.mideleg else first.csr.medeleg).getLsbD
    trap.causeLow = false
  recorded : cpu.csr.mepc = trap.epc ∧ cpu.csr.mtval = trap.tval ∧ cpu.csr.mcause = trap.cause
  low : taken.privilege ≤ 1
  mpp : statusMpp cpu.csr.mstatus = taken.privilege
  mpie : cpu.csr.mstatus.getLsbD rvStatusMpieBit = first.csr.mstatus.getLsbD rvStatusMieBit
  mie : cpu.csr.mstatus.getLsbD rvStatusMieBit = false
  mscratch : cpu.csr.mscratch = first.csr.mscratch
  mtvec : cpu.csr.mtvec = first.csr.mtvec
  irqs : cpu.csr.mie = first.csr.mie ∧ cpu.csr.mideleg = first.csr.mideleg
  medeleg : cpu.csr.medeleg = first.csr.medeleg
  pmp : cpu.csr.pmpcfg = first.csr.pmpcfg ∧ cpu.csr.pmpaddr = first.csr.pmpaddr

/-- A core that came from `first`: below M-mode all the time, or in M-mode right now by one
of these traps. -/
def LowOrEntered (takes : RvCpu → RvTrap → Prop) (first cpu : RvCpu) : Prop :=
  (cpu.privilege ≤ 1 ∧ MachineKept first cpu) ∨
    ∃ taken trap, takes taken trap ∧ EnteredMachine first taken trap cpu

theorem enteredMachine_trap {first cpu : RvCpu} (low : cpu.privilege ≤ 1)
    (kept : MachineKept first cpu) {trap : RvTrap} (direct : rvTrapDelegated cpu trap = false) :
    EnteredMachine first cpu trap (rvTrapEnterM cpu trap) := by
  have bounded : cpu.privilege ≤ 3 := by bv_omega
  have status : (rvTrapEnterM cpu trap).csr.mstatus =
      rvTrapMstatusM cpu.csr.mstatus cpu.privilege := rfl
  constructor
  · rfl
  · rw [← kept.mtvec]
    rfl
  · rw [← kept.mideleg, ← kept.medeleg]
    simpa only [rvTrapDelegated, low, decide_true, Bool.true_and] using direct
  · exact ⟨rfl, rfl, rfl⟩
  · exact low
  · rw [status, statusMpp_trapM _ bounded]
  · have machine : rvStatusMieBit ∈ rvStatusMachineBits := by decide
    rw [status, rvTrapMstatusM_getLsbD _ bounded, ← kept.status _ machine]
    rfl
  · rw [status, rvTrapMstatusM_getLsbD _ bounded]
    rfl
  · exact kept.mscratch
  · exact kept.mtvec
  · exact ⟨kept.mie, kept.mideleg⟩
  · exact kept.medeleg
  · exact ⟨kept.pmpcfg, kept.pmpaddr⟩

/-! ### Steps -/

section Step

variable {mc : EmuConfig δ} {m m' : EmuMachine δ} {h i : Nat} {first : RvCpu}
  {takes : RvCpu → RvTrap → Prop}

theorem LowOrEntered.doTrap (hooks : mc.NoHooks) (low : (m.cpus h).privilege ≤ 1)
    (kept : MachineKept first (m.cpus h)) {trap : RvTrap} (taken : takes (m.cpus h) trap) :
    LowOrEntered takes first ((rvDoTrap mc m h trap).cpus h) := by
  rw [rvDoTrap_noHooks hooks, EmuMachine.setCpu_same, rvTrapEnter]
  split
  · exact Or.inl ⟨(by decide : (1 : U8) ≤ 1), kept.trans (machineKept_trapS low trap)⟩
  · next direct =>
      exact Or.inr ⟨_, trap, taken, enteredMachine_trap low kept (by simpa using direct)⟩

/-- No interrupt is taken where a handler of M-mode starts. -/
theorem LowOrEntered.checkInterrupts (hooks : mc.NoHooks)
    (before : LowOrEntered takes first (m.cpus h))
    (interrupts : ∀ i, rvInterruptCause (m.cpus h) = some i →
      takes (m.cpus h) (rvInterruptTrap (m.cpus h).pc i)) :
    LowOrEntered takes first ((rvCheckInterrupts mc m h).cpus h) := by
  rcases before with ⟨low, kept⟩ | ⟨taken, trap, took, entered⟩
  · unfold rvCheckInterrupts
    split
    · exact Or.inl ⟨low, kept⟩
    · next i cause => exact LowOrEntered.doTrap hooks low kept (interrupts i cause)
  · have quiet := rvInterruptCause_idle (not_ready_machine entered.level entered.mie)
    rw [rvCheckInterrupts, quiet]
    exact Or.inr ⟨taken, trap, took, entered⟩

theorem LowOrMachine.below {cpu : RvCpu} (before : LowOrMachine first cpu)
    (low : cpu.privilege ≤ 1) : LowOrEntered takes first cpu := by
  rcases before with below | machine
  · exact Or.inl below
  · rw [machine] at low
    exact absurd low (by decide)

/-- A word that takes no trap leaves a hart below M-mode there. -/
theorem Executes.next_low {insn : U32} (executes : Executes mc m h insn (.next m'))
    (low : (m.cpus h).privilege ≤ 1) : (m'.cpus h).privilege ≤ 1 := by
  cases executes with
  | kept kept => exact (kept h).privilege ▸ low
  | xreg kept value =>
      rw [EmuMachine.writeXreg, EmuMachine.setCpu_same, (sameControl_xreg _ _ _).privilege]
      exact (kept h).privilege ▸ low
  | jump value target even =>
      rw [EmuMachine.setPc, EmuMachine.setCpu_same, EmuMachine.writeXreg, EmuMachine.setCpu_same]
      exact (sameControl_xreg (m.cpus h) _ _).privilege ▸ low
  | branch target even =>
      rw [EmuMachine.setPc, EmuMachine.setCpu_same]
      exact low
  | fpLoad kept form legal value =>
      rw [EmuMachine.setCpu_same]
      exact (kept h).privilege ▸ low
  | opFp form format computes => exact computes.regs.coreWork.control.privilege ▸ low
  | fused form format chosen =>
      rw [rvFloatFinish, EmuMachine.setCpu_same,
        (regsOnly_accrue _ _).coreWork.control.privilege,
        (rvFloatFused_regs _ _ _).coreWork.control.privilege]
      exact low
  | csr form read written =>
      rw [EmuMachine.setCpu_same, (sameControl_xreg _ _ _).privilege]
      rcases doCsrWrite_cases form read written with rfl | ⟨reg, wdata, _, stored⟩
      · exact low
      · exact (rvCsrWriteReg_privilege stored).1 ▸ low
  | mret word machine =>
      rw [machine] at low
      exact absurd low (by decide)
  | sret word legal =>
      rw [EmuMachine.setCpu_same]
      simp only [rvSret, rvSyncMemPrivilege_privilege]
      cases (m.cpus h).csr.mstatus.getLsbD rvStatusSppBit <;> decide
  | abort level => exact low

/-- The core that a word is trapped on. -/
theorem Executes.trap_control {insn : U32} {trap : RvTrap}
    (executes : Executes mc m h insn (.trap m' trap)) :
    SameControl (m.cpus h) (m'.cpus h) ∧ trap.isInterrupt = false ∧
      trap.epc = (m.cpus h).epc := by
  cases executes with
  | trap kept epc exception => exact ⟨(kept h).sameControl, exception, epc⟩
  | minMax form format op illegal =>
      rw [EmuMachine.setCpu_same]
      exact ⟨(rvFloatMinMax_regs _ _ _).coreWork.control, RvCause.isInterrupt _ _ _, rfl⟩

theorem rvForcefeedInsn_lowOrEntered {insn : U32} (hooks : mc.NoHooks)
    (synced : MemSynced (m.cpus h)) (low : (m.cpus h).privilege ≤ 1)
    (kept : MachineKept first (m.cpus h))
    (raised : ∀ m' trap, RaisesOn mc m h insn m' trap →
      (m'.cpus h).privilege = (m.cpus h).privilege → trap.epc = (m.cpus h).epc →
        takes (m'.cpus h) trap) :
    LowOrEntered takes first ((rvForcefeedInsn mc m h insn).cpus h) := by
  have comes : ComesTo mc m h insn fun mc => rvForcefeedInsn mc m h insn := rvForcefeedInsn_comesTo
  rcases comes with ⟨out, executes, finished⟩
  have own : rvForcefeedInsn mc m h insn = out.finish mc h := finished mc.trapHook
  cases out with
  | next m' =>
      have effect : InsnEffect mc m h insn (rvForcefeedInsn mc m h insn) := rvForcefeedInsn_effect
      apply (insnEffect_lowOrMachine hooks synced low kept effect).below
      rw [own]
      exact executes.next_low low
  | trap m' trap =>
      obtain ⟨same, exception, epc⟩ := executes.trap_control
      rw [own]
      refine LowOrEntered.doTrap hooks ?_ (kept.trans (machineKept_control same))
        (raised m' trap ⟨exception, finished⟩ same.privilege epc)
      rw [same.privilege]
      exact low

theorem rvStepInsn_lowOrEntered (hooks : mc.NoHooks) (synced : MemSynced (m.cpus h))
    (low : (m.cpus h).privilege ≤ 1) (kept : MachineKept first (m.cpus h)) :
    LowOrEntered (TakesTrap mc m h (.step h)) first ((rvStepInsn mc m h).cpus h) := by
  have fetched := rvFetchInsn_fetched mc m h
  have same := (rvFetchInsn_step mc m h).core h
  have kept' := kept.trans (machineKept_control same)
  have level : ((rvFetchInsn mc m h).machine.cpus h).privilege ≤ 1 := by
    rw [same.privilege]
    exact low
  have synced' := same.synced synced
  unfold rvStepInsn rvStepInsnBy
  cases outcome : rvFetchInsn mc m h with
  | fault m' trap =>
      rw [outcome] at fetched kept' level
      cases fetched with
      | fault core epc exception =>
          exact LowOrEntered.doTrap hooks level kept' (.fault outcome (core h) epc exception)
  | illegal m' hw =>
      rw [outcome] at fetched kept' level same
      have epc : (m'.cpus h).epc = (m.cpus h).pc := by
        cases fetched with
        | illegal core hw => rw [EmuMachine.setCpu_same]
      have took : TakesTrap mc m h (.step h) (m'.cpus h)
          ⟨(m'.cpus h).epc, (hw.setWidth 32).setWidth 64, RvCause.iillegal.code⟩ := by
        rw [epc]
        exact .illegal outcome same.privilege
      exact LowOrEntered.doTrap hooks level kept' took
  | word m' insn =>
      rw [outcome] at fetched kept' level synced' same
      have epc : (m'.cpus h).epc = (m.cpus h).pc := by
        cases fetched with
        | word core insn len even => rw [EmuMachine.setCpu_same]
      have executed : LowOrEntered (TakesTrap mc m h (.step h)) first
          ((rvForcefeedInsn mc m' h insn).cpus h) :=
        rvForcefeedInsn_lowOrEntered hooks synced' level kept' fun m'' trap raises level' epc' =>
          .raised outcome raises (level'.trans same.privilege) (epc'.trans epc)
      exact executed.checkInterrupts hooks fun i cause => .interrupted outcome rfl cause

/-- Whatever happens to the machine, a hart below M-mode stays there with the registers of
M-mode as they are, or enters the handler. -/
theorem machineStep_lowOrEntered (hooks : mc.NoHooks) (synced : MemSynced (m.cpus i))
    (low : (m.cpus i).privilege ≤ 1) (kept : MachineKept first (m.cpus i)) (e : MachineEvent δ) :
    LowOrEntered (TakesTrap mc m i e) first ((machineStep mc m e).cpus i) := by
  have control : ∀ {m' : EmuMachine δ}, SameControl (m.cpus i) (m'.cpus i) →
      LowOrEntered (TakesTrap mc m i e) first (m'.cpus i) := by
    intro m' same
    refine Or.inl ⟨?_, kept.trans (machineKept_control same)⟩
    rw [same.privilege]
    exact low
  cases e with
  | step h =>
      by_cases mine : i = h
      · subst mine
        exact rvStepInsn_lowOrEntered hooks synced low kept
      · exact control (rvStepInsn_other hooks mine)
  | insn h insn =>
      by_cases mine : i = h
      · subst mine
        exact rvForcefeedInsn_lowOrEntered hooks synced low kept
          fun m' trap raises level epc => .insn raises level epc
      · exact control (insnEffect_other hooks mine rvForcefeedInsn_effect)
  | trap h trap =>
      by_cases mine : i = h
      · subst mine
        exact LowOrEntered.doTrap hooks low kept (.trap trap)
      · apply control
        rw [machineStep, machineStepBy, rvDoTrap_other hooks mine]
        exact .refl _
  | interrupts h =>
      by_cases mine : i = h
      · subst mine
        exact LowOrEntered.checkInterrupts hooks (Or.inl ⟨low, kept⟩)
          fun j cause => .interrupts cause
      · apply control
        simp only [machineStep, machineStepBy, rvCheckInterrupts]
        split
        · exact .refl _
        · rw [rvDoTrap_other hooks mine]
          exact .refl _
  | devices bus => exact control ((setBus_frame m bus).virt 0 |>.dataStep.core i)
  | load ram => exact control ((setRam_frame m ram).virt 0 |>.dataStep.core i)

end Step

/-! ### Runs -/

theorem machineKept_run {mc : EmuConfig δ} (hooks : mc.NoHooks) {first : RvCpu} {h : Nat}
    {m : EmuMachine δ} {events : List (MachineEvent δ)} (synced : MemSynced (m.cpus h))
    (kept : MachineKept first (m.cpus h))
    (below : Throughout (machineStep mc) (fun now => (now.cpus h).privilege ≤ 1) m events) :
    MachineKept first ((run (machineStep mc) m events).cpus h) := by
  induction events generalizing m with
  | nil => exact kept
  | cons e events ih =>
      obtain ⟨low, later⟩ := (throughout_cons m e events).mp below
      apply ih ((memSynced_invariant (hooks.keeps _)).run synced [e]) _ later
      rcases machineStep_lowOrEntered hooks synced low kept e with ⟨_, kept'⟩ | ⟨_, _, _, entered⟩
      · exact kept'
      · have next : ((machineStep mc m e).cpus h).privilege ≤ 1 := later [] List.nil_prefix
        rw [entered.level] at next
        exact absurd next (by decide)

/-- A hart that is below M-mode gets into M-mode only by a trap that is not delegated, at the
handler that M-mode set up before it left, however long ago that was and whatever all harts
have done since inside their arrays. The trap is recorded with the level it was taken from. -/
theorem machine_gate (mc : EmuConfig δ) (hooks : mc.NoHooks) (device : δ) (h : Nat)
    (history events : List (MachineEvent δ)) {m last : EmuMachine δ}
    (reached : m = run (hostStep mc) (emuMachineInit device) history)
    (later : last = run (hostStep mc) m events) (e : MachineEvent δ)
    (inside : StepsMeet (hostStep mc) (StoresInArray mc) (emuMachineInit device)
      (history ++ (events ++ [e])))
    (below : Throughout (hostStep mc) (fun now => (now.cpus h).privilege ≤ 1) m events)
    (enters : ((hostStep mc last e).cpus h).privilege = 3) :
    ∃ taken trap, TakesTrap mc last h e taken trap ∧
      EnteredMachine (m.cpus h) taken trap ((hostStep mc last e).cpus h) := by
  obtain ⟨early, rest⟩ := (stepsMeet_append _ _ _).mp inside
  rw [← reached] at rest
  obtain ⟨between, final, _⟩ := (stepsMeet_append _ _ _).mp rest
  rw [← later] at final
  rw [hostRun_eq early] at reached
  rw [hostRun_eq between] at later
  rw [hostThroughout_iff between] at below
  rw [hostStep_eq final] at enters ⊢
  have synced : MemSynced (m.cpus h) := by
    rw [reached]
    exact (memSynced_invariant (hooks.keeps _)).run (emuMachineInit_synced device h) history
  have kept := machineKept_run hooks synced (machineKept_control (.refl _)) below
  have low := below events (List.prefix_refl events)
  have synced' := (memSynced_invariant (hooks.keeps _)).run synced events
  rw [← later] at kept low synced'
  rcases machineStep_lowOrEntered hooks synced' low kept e with ⟨after, _⟩ | entered
  · rw [enters] at after
    exact absurd after (by decide)
  · exact entered

/-- A hart that has returned to U-mode. -/
def userHart : EmuMachine Unit :=
  run (hostStep (EmuConfig.ramOnly 0 0x1000 1)) (emuMachineInit ()) [.insn 0 0x30200073]

/-- PMP refuses its next fetch. -/
theorem machine_gate_fetch :
    ∃ taken trap, TakesTrap (EmuConfig.ramOnly 0 0x1000 1) userHart 0 (.step 0) taken trap ∧
      EnteredMachine (userHart.cpus 0) taken trap
        ((hostStep (EmuConfig.ramOnly 0 0x1000 1) userHart (.step 0)).cpus 0) := by
  have user : (userHart.cpus 0).privilege ≤ 1 := by decide +kernel
  exact machine_gate (EmuConfig.ramOnly 0 0x1000 1) (fun _ => rfl) () 0 [.insn 0 0x30200073] []
    rfl rfl (.step 0)
    (storesInArray_run (fun _ => rfl) (emuMachineInit_inArray _) (by decide +kernel))
    ((throughout_nil _).mpr user) (by decide +kernel)

end Riscmulator
