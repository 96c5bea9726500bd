import Riscmulator.InterruptEnable
import Riscmulator.Isolation

/-! When a step leaves an interrupt for M-mode waiting. -/

namespace Riscmulator

open Transition

variable {δ : Type}

/-- An interrupt for M-mode is pending and enabled. -/
def MachineWaiting (cpu : RvCpu) : Prop :=
  ∃ i ∈ irqPriority, cpu.irqPending.getLsbD i = true ∧ cpu.csr.mie.getLsbD i = true ∧
    cpu.csr.mideleg.getLsbD i = false

instance (cpu : RvCpu) : Decidable (MachineWaiting cpu) :=
  inferInstanceAs (Decidable (∃ i ∈ irqPriority, _))

/-- Below M-mode no interrupt for M-mode is left waiting. -/
def MachineServed (cpu : RvCpu) : Prop := cpu.privilege < 3 → ¬MachineWaiting cpu

theorem machineWaiting_congr {cpu cpu' : RvCpu} (pending : cpu'.irqPending = cpu.irqPending)
    (mie : cpu'.csr.mie = cpu.csr.mie) (mideleg : cpu'.csr.mideleg = cpu.csr.mideleg) :
    MachineWaiting cpu' ↔ MachineWaiting cpu := by
  simp only [MachineWaiting, pending, mie, mideleg]

theorem rvTrapEnter_waiting (cpu : RvCpu) (trap : RvTrap) :
    MachineWaiting (rvTrapEnter cpu trap) ↔ MachineWaiting cpu := by
  unfold rvTrapEnter
  split
  · exact machineWaiting_congr rfl rfl rfl
  · exact machineWaiting_congr rfl rfl rfl

/-- A trap leaves an interrupt for M-mode waiting when it is delegated. -/
theorem rvTrapEnter_served (cpu : RvCpu) (trap : RvTrap) :
    MachineServed (rvTrapEnter cpu trap) ↔
      (rvTrapDelegated cpu trap = true → ¬MachineWaiting cpu) := by
  rw [MachineServed, rvTrapEnter_waiting, rvTrapEnter]
  split
  · next delegated =>
      have low : (rvTrapEnterS cpu trap).privilege < 3 := (by decide : (1 : U8) < 3)
      exact ⟨fun served _ => served low, fun served _ => served delegated⟩
  · next direct =>
      have machine : ¬(rvTrapEnterM cpu trap).privilege < 3 := (by decide : ¬(3 : U8) < 3)
      exact ⟨fun _ delegated => absurd delegated direct, fun _ low => absurd low machine⟩

/-! ### The check at the end of a step -/

/-- Below M-mode, what waits for M-mode is what is taken. -/
theorem rvInterruptTake_machine {cpu : RvCpu} (low : cpu.privilege < 3)
    (waiting : MachineWaiting cpu) :
    rvInterruptTake cpu = cpu.irqPending &&& cpu.csr.mie &&& ~~~cpu.csr.mideleg := by
  obtain ⟨i, known, pending, enabled, direct⟩ := waiting
  have some : cpu.irqPending &&& cpu.csr.mie &&& ~~~cpu.csr.mideleg ≠ 0 := by
    intro none
    have clear := (BitField.eq_zero_iff _).mp none i
    rw [BitField.getLsbD_and_not, BitVec.getLsbD_and, pending, enabled, direct] at clear
    cases clear
  simp only [rvInterruptTake, decide_eq_true low, decide_eq_true some, Bool.true_or, Bool.true_and,
    if_true]

theorem rvInterruptTrap_direct {cpu : RvCpu} {j : Nat} (known : j ∈ irqPriority)
    (direct : cpu.privilege < 3 → cpu.csr.mideleg.getLsbD j = false) :
    rvTrapDelegated cpu (rvInterruptTrap cpu.pc j) = false := by
  obtain ⟨interrupt, cause⟩ := rvInterruptTrap_cause cpu.pc known
  simp only [rvTrapDelegated, interrupt, cause, if_true]
  by_cases low : cpu.privilege < 3
  · rw [direct low, Bool.and_false]
  · have high : ¬cpu.privilege ≤ 1 := by bv_omega
    rw [decide_eq_false high, Bool.false_and]

/-- `rv_check_interrupts` leaves no interrupt for M-mode waiting below M-mode. -/
theorem rvCheckInterrupts_served (mc : EmuConfig δ) (m : EmuMachine δ) (h : Nat) :
    MachineServed ((rvCheckInterrupts mc m h).cpus h) := by
  by_cases waiting : MachineWaiting (m.cpus h)
  · unfold rvCheckInterrupts
    split
    · next none =>
        intro low
        have takes := rvInterruptTake_machine low waiting
        obtain ⟨i, known, pending, enabled, direct⟩ := waiting
        have passes := List.find?_eq_none.mp none i known
        rw [takes, BitField.getLsbD_and_not, BitVec.getLsbD_and, pending, enabled, direct] at passes
        exact absurd rfl passes
    · next j found =>
        have known : j ∈ irqPriority := List.mem_of_find?_eq_some found
        have holds : (rvInterruptTake (m.cpus h)).getLsbD j = true := List.find?_some found
        rw [rvDoTrap_interrupt mc m h (rvInterruptTrap_cause _ known).1, EmuMachine.setCpu_same,
          rvTrapEnter_served]
        intro delegated
        rw [rvInterruptTrap_direct known] at delegated
        · cases delegated
        · intro low
          rw [rvInterruptTake_machine low waiting, BitField.getLsbD_and_not, Bool.and_eq_true,
            Bool.not_eq_true'] at holds
          exact holds.2
  · intro _ after
    apply waiting
    revert after
    unfold rvCheckInterrupts
    split
    · exact id
    · next j found =>
        have known : j ∈ irqPriority := List.mem_of_find?_eq_some found
        rw [rvDoTrap_interrupt mc m h (rvInterruptTrap_cause _ known).1, EmuMachine.setCpu_same,
          rvTrapEnter_waiting]
        exact id

/-! ### The exits of a step -/

/-- The exception that a fetch ends in: an access that fails, or a compressed
encoding that does not expand. -/
def rvFetchTrap (mc : EmuConfig δ) (m : EmuMachine δ) (h : Nat) : Option RvTrap :=
  match rvFetchInsn mc m h with
  | .fault _ trap => some trap
  | .illegal m hw => some
      { epc := (m.cpus h).epc, cause := RvCause.iillegal.code,
        tval := (hw.setWidth 32).setWidth 64 }
  | .word _ _ => none

/-- The fetch ends in an exception that S-mode handles, with an interrupt for
M-mode waiting: the two exits of `rv_step_insn` without a check. -/
def StepUnchecked (mc : EmuConfig δ) (m : EmuMachine δ) (h : Nat) : Prop :=
  ∃ trap, rvFetchTrap mc m h = some trap ∧ rvTrapDelegated (m.cpus h) trap = true ∧
    MachineWaiting (m.cpus h)

theorem rvTrapDelegated_control {cpu cpu' : RvCpu} (same : SameControl cpu cpu') (trap : RvTrap) :
    rvTrapDelegated cpu' trap = rvTrapDelegated cpu trap := by
  rcases same.csr with ⟨fcsr, csr⟩
  simp only [rvTrapDelegated, csr, same.privilege]

theorem rvStepInsn_served {mc : EmuConfig δ} (hooks : mc.NoHooks) {m : EmuMachine δ} {h : Nat}
    (quiet : ((rvFetchInsn mc m h).machine.cpus h).irqPending = (m.cpus h).irqPending) :
    MachineServed ((rvStepInsn mc m h).cpus h) ↔ ¬StepUnchecked mc m h := by
  have same := (rvFetchInsn_step mc m h).core h
  have waiting : MachineWaiting ((rvFetchInsn mc m h).machine.cpus h) ↔
      MachineWaiting (m.cpus h) := by
    rcases same.csr with ⟨fcsr, csr⟩
    exact machineWaiting_congr quiet (by rw [csr]) (by rw [csr])
  have entered : ∀ trap, MachineServed (rvTrapEnter ((rvFetchInsn mc m h).machine.cpus h) trap) ↔
      (rvTrapDelegated (m.cpus h) trap = true → ¬MachineWaiting (m.cpus h)) := by
    intro trap
    rw [rvTrapEnter_served, waiting, rvTrapDelegated_control same]
  unfold rvStepInsn rvStepInsnBy StepUnchecked rvFetchTrap
  cases outcome : rvFetchInsn mc m h with
  | fault m' trap =>
      rw [outcome] at entered
      have exit : MachineServed (rvTrapEnter (m'.cpus h) trap) ↔ _ := entered trap
      simp only [rvDoTrap_noHooks hooks, EmuMachine.setCpu_same, exit]
      simp
  | illegal m' hw =>
      rw [outcome] at entered
      have exit : ∀ trap, MachineServed (rvTrapEnter (m'.cpus h) trap) ↔ _ := entered
      simp only [rvDoIillegal, rvDoTrap_noHooks hooks, EmuMachine.setCpu_same, exit]
      simp
  | word m' insn =>
      constructor
      · intro _ missed
        rcases missed with ⟨_, none, _⟩
        cases none
      · intro _
        exact rvCheckInterrupts_served mc _ h

/-- The same in the host's memory, where an executed word may store past the TLB: the
check comes after it. -/
theorem hostStepInsn_served {mc : EmuConfig δ} (hooks : mc.NoHooks) {m : EmuMachine δ} {h : Nat}
    (inside : (rvFetchInsn mc m h).machine.InArray)
    (quiet : ((rvFetchInsn mc m h).machine.cpus h).irqPending = (m.cpus h).irqPending) :
    MachineServed ((hostStepInsn mc m h).cpus h) ↔ ¬StepUnchecked mc m h := by
  rw [← rvStepInsn_served hooks quiet]
  simp only [hostStepInsn, rvStepInsn, rvStepInsnBy, hostFetchInsn_eq inside]
  cases rvFetchInsn mc m h with
  | fault m' trap => rfl
  | illegal m' hw => rfl
  | word m' insn =>
      exact ⟨fun _ => rvCheckInterrupts_served mc _ h, fun _ => rvCheckInterrupts_served mc _ h⟩

/-! ### Runs -/

/-- After every step of every run in which the devices leave the interrupt lines
alone while the hart fetches, and the TLB stores of the fetch stay in the array,
no interrupt for M-mode waits below M-mode exactly when the step did not leave
through an unchecked exit. -/
theorem machineServed_run (mc : EmuConfig δ) (hooks : mc.NoHooks) (device : δ)
    (events : List (MachineEvent δ)) (h : Nat) {m : EmuMachine δ}
    (reached : m = run (hostStep mc) (emuMachineInit device) events)
    (inside : (rvFetchInsn mc m h).machine.InArray)
    (quiet : ((rvFetchInsn mc m h).machine.cpus h).irqPending = (m.cpus h).irqPending) :
    MachineServed
        ((run (hostStep mc) (emuMachineInit device) (events ++ [.step h])).cpus h) ↔
      ¬StepUnchecked mc m h := by
  rw [run_append, ← reached, run_cons, run_nil]
  exact hostStepInsn_served hooks inside quiet

/-- Enable the timer interrupt for M-mode, delegate fetch faults and return to
U-mode behind the end of RAM; then the timer fires. -/
def timerInUser : List (MachineEvent Unit) :=
  [.insn 0 0x08000093, .insn 0 0x30409073, .insn 0 0x00200093, .insn 0 0x30209073,
    .insn 0 0x000020b7, .insn 0 0x34109073, .insn 0 0x30200073,
    .devices { device := (), irqPending := fun _ => bit rvMipMtipBit,
               clintTimerArmed := fun _ => false }]

/-- The faulting fetch leaves the timer interrupt waiting in S-mode. -/
theorem machineServed_missed :
    ¬MachineServed ((run (hostStep (EmuConfig.ramOnly 0 0x1000 1)) (emuMachineInit ())
      (timerInUser ++ [.step 0])).cpus 0) := by
  intro served
  exact served (by decide) (by decide)

/-- The same fault with nothing pending and nothing delegated. -/
theorem machineServed_run_direct :
    MachineServed ((run (hostStep (EmuConfig.ramOnly 0 0x1000 1)) (emuMachineInit ())
      ([.insn 0 0x30200073] ++ [.step 0])).cpus 0) := by
  have entered : StepsMeet (hostStep (EmuConfig.ramOnly 0 0x1000 1))
      (StoresInArray (EmuConfig.ramOnly 0 0x1000 1)) (emuMachineInit ()) [.insn 0 0x30200073] :=
    storesInArray_run (fun _ => rfl) (emuMachineInit_inArray ()) ⟨by decide, trivial⟩
  have fetched := (rvFetchInsn_steps (EmuConfig.ramOnly 0 0x1000 1) _ 0).bare_inArray (by decide)
    (hostRun_inArray entered (fun _ => rfl) (emuMachineInit_inArray ()))
  refine (machineServed_run (EmuConfig.ramOnly 0 0x1000 1) (fun _ => rfl) () [.insn 0 0x30200073]
    0 rfl fetched (by decide)).mpr ?_
  intro missed
  obtain ⟨_, _, _, waiting⟩ := missed
  exact absurd waiting (by decide)

end Riscmulator
